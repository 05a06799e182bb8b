import Instrument.Proofs.Agreement
import Instrument.Proofs.Lockstep

namespace Instrument.Document

variable {c : Catalog}

namespace Reader

open Text

variable {strict : Bool} {r r' : Reader} {lines pre first second post : List (List Char)}
  {N : String → Prop}

def BeginsAtTop (lines : List (List Char)) : Prop := ∀ line ∈ lines.head?, AtTop line

/-- Lines that begin at the top and declare no variable, as those of a component or a trigger with its body
do. -/
structure Block (lines : List (List Char)) : Prop where
  top : BeginsAtTop lines
  plain : ∀ line ∈ lines, declares line = false

theorem BeginsAtTop.account_settle (h : BeginsAtTop lines) (c : Catalog) (strict : Bool) (r : Reader) :
    SameAccount c strict lines r (r.settle 0) ∧
      (readLines c strict (r.settle 0) lines).store = (readLines c strict r lines).store := by
  cases lines with
  | nil => exact ⟨⟨rfl, rfl, rfl, rfl, rfl, rfl⟩, store_settle 0 r⟩
  | cons line rest =>
      have htop : AtTop line := h line rfl
      refine ⟨htop.account_settle c strict rest r, ?_⟩
      rw [readLines, readLines, List.foldl_cons, List.foldl_cons, htop.step_settle]

theorem BeginsAtTop.account (h : BeginsAtTop lines) (hr : Rested r) (hr' : Rested r')
    (hnames : ∀ name, ¬N name → r'.store.nameInfo? name = r.store.nameInfo? name)
    (hvariables : ∀ name, r'.store.variableInfo? name = r.store.variableInfo? name)
    (hN : ∀ name, N name → isName name.toList = true) (havoid : ∀ name ∈ namesIn c strict r lines, ¬N name)
    (hplain : (∀ line ∈ lines, declares line = false) ∨ ∀ name, ¬N name) :
    SameAccount c strict lines r r' ∧ ∀ name, ¬N name →
      (readLines c strict r' lines).store.nameInfo? name = (readLines c strict r lines).store.nameInfo? name := by
  obtain ⟨hfirst, hstore⟩ := h.account_settle c strict r
  obtain ⟨hsecond, hstore'⟩ := h.account_settle c strict r'
  have habreast : Abreast N (r.settle 0) (r'.settle 0) := hr.abreast hr' hnames
  rw [← hfirst.names_eq] at havoid
  obtain ⟨hboth, hlast⟩ := habreast.account hN lines (by rwa [store_settle, store_settle]) havoid hplain
  refine ⟨(hfirst.trans hboth).trans hsecond.symm, ?_⟩
  intro name hname
  rw [← hstore, ← hstore', hlast.nameInfo?_eq name hname]

theorem BeginsAtTop.sameVariables (h : BeginsAtTop lines) (hr : Rested r) (hr' : Rested r')
    (hnames : ∀ name, r'.store.nameInfo? name = r.store.nameInfo? name) (hline : r'.line = r.line)
    (hsame : r.store.SameVariables r'.store) :
    (readLines c strict r lines).store.SameVariables (readLines c strict r' lines).store := by
  have hlevel : Level (r.settle 0) (r'.settle 0) := by
    refine ⟨hr.abreast hr' fun name _ => hnames name, ?_, ?_⟩
    · simp only [settle_eq, hline]
    · rwa [store_settle, store_settle]
  rw [← (h.account_settle c strict r).2, ← (h.account_settle c strict r').2]
  exact (hlevel.readLines c strict lines).sameVariables

/-- Two blocks say the same in either order, and leave the same names and the same variables. -/
structure Commute (c : Catalog) (strict : Bool) (r : Reader) (first second : List (List Char)) : Prop where
  account_first : SameAccount c strict first r (readLines c strict r second)
  account_second : SameAccount c strict second (readLines c strict r first) r
  nameInfo?_eq : ∀ name, (readLines c strict (readLines c strict r second) first).store.nameInfo? name =
    (readLines c strict (readLines c strict r first) second).store.nameInfo? name
  sameVariables : (readLines c strict (readLines c strict r first) second).store.SameVariables
    (readLines c strict (readLines c strict r second) first).store

theorem commute_of_disjoint (hr : Rested r) (hfirst : Block first) (hsecond : Block second)
    (hdisjoint : (namesIn c strict r first).Disjoint (namesIn c strict (readLines c strict r first) second)) :
    Commute c strict r first second := by
  have hr₁ : Rested (readLines c strict r first) := rested_readLines c strict first hr
  have hr₂ : Rested (readLines c strict r second) := rested_readLines c strict second hr
  obtain ⟨hvariables₁, hsame₁⟩ := variables_readLines c strict hfirst.plain r
  obtain ⟨hvariables₂, hsame₂⟩ := variables_readLines c strict hsecond.plain r
  -- The second block does not notice the names of the first.
  obtain ⟨haccount₂, hnames₂⟩ := hsecond.top.account (N := (· ∈ namesIn c strict r first)) hr₁ hr
    (fun name hname => (nameInfo?_readLines hfirst.plain hname).symm) (fun name => (hvariables₁ name).symm)
    (fun _ => isName_of_mem_namesIn) (fun name hname hmem => hdisjoint hmem hname) (.inl hsecond.plain)
  -- Nor does the first block notice those of the second.
  obtain ⟨haccount₁, hnames₁⟩ := hfirst.top.account (N := (· ∈ namesIn c strict r second)) hr hr₂
    (fun name hname => nameInfo?_readLines hsecond.plain hname) hvariables₂
    (fun _ => isName_of_mem_namesIn)
    (fun name hname hmem => hdisjoint hname (by rwa [← haccount₂.names_eq])) (.inl hfirst.plain)
  refine ⟨haccount₁, haccount₂, ?_, ?_⟩
  · intro name
    by_cases hmem : name ∈ namesIn c strict r first
    · have hother : name ∉ namesIn c strict (readLines c strict r first) second := hdisjoint hmem
      rw [nameInfo?_readLines hsecond.plain hother]
      exact hnames₁ name (by rwa [haccount₂.names_eq])
    · rw [← hnames₂ name hmem]
      exact nameInfo?_readLines hfirst.plain (by rwa [haccount₁.names_eq])
  · obtain ⟨-, hsame₁₂⟩ := variables_readLines c strict hsecond.plain (readLines c strict r first)
    obtain ⟨-, hsame₂₁⟩ := variables_readLines c strict hfirst.plain (readLines c strict r second)
    exact ((hsame₁.trans hsame₁₂).symm.trans hsame₂).trans hsame₂₁

def Among (names keys : List String) : Owner → Prop
  | .component name _ => name ∈ names
  | .trigger key _ => key ∈ keys

theorem AllOpen.targets {p : Owner → Prop} (c : Catalog) (strict : Bool) (lines : List (List Char)) :
    ∀ {r}, AllOpen p r → (∀ name ∈ namesIn c strict r lines, ∀ kind, p (.component name kind)) →
      (∀ key ∈ keysIn c strict r lines, ∀ kind, p (.trigger key kind)) →
        (∀ given ∈ notedGifts c strict r lines, p given.1.1) ∧
          ∀ given ∈ attachments c strict r lines, p given.1.1 := by
  induction lines with
  | nil =>
      intro r _ _ _
      simp [notedGifts, gifts, attachments]
  | cons line rest ih =>
      intro r h hnames hkeys
      have hstep : AllOpen p (r.step c strict line) := by
        refine h.step strict ?_ ?_
        · intro name kind hname
          exact hnames name (List.mem_append_left _ (Option.mem_toList.2 hname)) kind
        · intro key kind hkey
          exact hkeys key (List.mem_append_left _ (Option.mem_toList.2 hkey)) kind
      obtain ⟨hgiven, hattached⟩ := ih hstep
        (fun name hname => hnames name (List.mem_append_right _ hname))
        (fun key hkey => hkeys key (List.mem_append_right _ hkey))
      constructor
      · intro given hmem
        rw [notedGifts_cons, List.mem_append, Option.mem_toList, Option.map_eq_some_iff] at hmem
        rcases hmem with hlater | ⟨⟨⟨owner, attr⟩, g⟩, hgift, rfl⟩
        · exact hgiven given hlater
        · exact h.written strict (written?_of_assignment? (gift?_eq_some.1 hgift).1)
      · rintro ⟨⟨owner, attr⟩, name⟩ hmem
        rw [attachments, List.mem_append, Option.mem_toList] at hmem
        rcases hmem with hlater | hhere
        · exact hattached _ hlater
        · exact h.written strict (written?_of_attachment? hhere)

theorem BeginsAtTop.targets (h : BeginsAtTop lines) (hr : Rested r) (c : Catalog) (strict : Bool) :
    (∀ given ∈ notedGifts c strict r lines,
        Among (namesIn c strict r lines) (keysIn c strict r lines) given.1.1) ∧
      ∀ given ∈ attachments c strict r lines,
        Among (namesIn c strict r lines) (keysIn c strict r lines) given.1.1 := by
  obtain ⟨hsame, -⟩ := h.account_settle c strict r
  have htargets := (hr.allOpen_settle (Among (namesIn c strict r lines) (keysIn c strict r lines))).targets
    c strict lines (by rw [hsame.names_eq]; exact fun name hname _ => hname)
    (by rw [hsame.keys_eq]; exact fun key hkey _ => hkey)
  rwa [hsame.gifts_eq, hsame.attachments_eq] at htargets

theorem not_among_of_disjoint {names names' keys keys' : List String} (hnames : names.Disjoint names')
    (hkeys : keys.Disjoint keys') : ∀ owner, Among names keys owner → ¬Among names' keys' owner
  | .component _ _, h => hnames h
  | .trigger _ _, h => hkeys h

theorem lookup_append_left_comm {α : Type} {entries entries' : List ((Owner × String) × α)}
    {p q : Owner → Prop} (hpq : ∀ owner, p owner → ¬q owner) (hp : ∀ entry ∈ entries, p entry.1.1)
    (hq : ∀ entry ∈ entries', q entry.1.1) (rest : List ((Owner × String) × α)) (target : Owner × String) :
    (entries ++ (entries' ++ rest)).lookup target = (entries' ++ (entries ++ rest)).lookup target := by
  simp only [List.lookup_append]
  cases hfound : entries.lookup target with
  | none => simp
  | some b =>
      cases hfound' : entries'.lookup target with
      | none => simp
      | some b' =>
          have hfirst : p target.1 := hp _ (mem_of_lookup hfound)
          have hsecond : q target.1 := hq _ (mem_of_lookup hfound')
          exact absurd hsecond (hpq _ hfirst)

theorem keysIn_append (lines more : List (List Char)) : ∀ r,
    keysIn c strict r (lines ++ more) =
      keysIn c strict r lines ++ keysIn c strict (readLines c strict r lines) more := by
  induction lines with
  | nil =>
      intro r
      rfl
  | cons line rest ih =>
      intro r
      rw [List.cons_append, keysIn, keysIn, ih, List.append_assoc]
      rfl

theorem notedGifts_append (lines more : List (List Char)) : ∀ r,
    notedGifts c strict r (lines ++ more) =
      notedGifts c strict (readLines c strict r lines) more ++ notedGifts c strict r lines := by
  induction lines with
  | nil =>
      intro r
      exact (List.append_nil _).symm
  | cons line rest ih =>
      intro r
      rw [List.cons_append, notedGifts_cons, notedGifts_cons, ih, List.append_assoc]
      rfl

theorem attachments_append (lines more : List (List Char)) : ∀ r,
    attachments c strict r (lines ++ more) =
      attachments c strict (readLines c strict r lines) more ++ attachments c strict r lines := by
  induction lines with
  | nil =>
      intro r
      exact (List.append_nil _).symm
  | cons line rest ih =>
      intro r
      rw [List.cons_append, attachments, attachments, ih, List.append_assoc]
      rfl

theorem asides_append (lines more : List (List Char)) : ∀ r,
    asides c strict r (lines ++ more) =
      asides c strict r lines ++ asides c strict (readLines c strict r lines) more := by
  induction lines with
  | nil =>
      intro r
      rfl
  | cons line rest ih =>
      intro r
      rw [List.cons_append, asides, asides, ih, List.append_assoc]
      rfl

theorem Commute.account_post (h : Commute c strict r first second) (hr : Rested r) (hpost : BeginsAtTop post) :
    SameAccount c strict post (readLines c strict (readLines c strict r first) second)
        (readLines c strict (readLines c strict r second) first) ∧
      ∀ name, (readLines c strict (readLines c strict (readLines c strict r second) first) post).store.nameInfo?
          name = (readLines c strict (readLines c strict (readLines c strict r first) second) post).store.nameInfo?
            name := by
  have hr₁₂ := rested_readLines c strict second (rested_readLines c strict first hr)
  have hr₂₁ := rested_readLines c strict first (rested_readLines c strict second hr)
  obtain ⟨hsame, hnames⟩ := hpost.account (N := fun _ => False) hr₁₂ hr₂₁ (fun name _ => h.nameInfo?_eq name)
    (fun name => by rw [Store.variableInfo?, Store.variableInfo?, h.nameInfo?_eq]) (fun _ => False.elim)
    (fun _ _ => id) (.inr fun _ => id)
  exact ⟨hsame, fun name => hnames name id⟩

theorem agree_of_commute (hfirst : BeginsAtTop first) (hsecond : BeginsAtTop second)
    (hpost : BeginsAtTop post) (h : Commute c strict (readLines c strict start pre) first second)
    (hnames : (namesIn c strict (readLines c strict start pre) first).Disjoint
      (namesIn c strict (readLines c strict (readLines c strict start pre) first) second))
    (hopened : (keysIn c strict (readLines c strict start pre) first).Disjoint
      (keysIn c strict (readLines c strict (readLines c strict start pre) first) second)) :
    Agree c strict (pre ++ first ++ second ++ post) (pre ++ second ++ first ++ post) := by
  have hr : Rested (readLines c strict start pre) := rested_readLines c strict pre rested_start
  obtain ⟨haccount, hlast⟩ := h.account_post hr hpost
  obtain ⟨hgifts₁, hattached₁⟩ := hfirst.targets hr c strict
  obtain ⟨hgifts₂, hattached₂⟩ := hsecond.targets (rested_readLines c strict first hr) c strict
  have hdisjoint := not_among_of_disjoint hnames hopened
  constructor
  · intro name
    simp only [readLines_append]
    exact hlast name
  · simp only [readLines_append]
    refine hpost.sameVariables ?_ ?_ h.nameInfo?_eq ?_ h.sameVariables
    · exact rested_readLines c strict second (rested_readLines c strict first hr)
    · exact rested_readLines c strict first (rested_readLines c strict second hr)
    · simp only [line_readLines]
      omega
  · intro key
    simp only [keysIn_append, readLines_append, List.mem_append, haccount.keys_eq, h.account_first.keys_eq,
      h.account_second.keys_eq]
    tauto
  · intro target
    simp only [notedGifts_append, readLines_append, haccount.gifts_eq, h.account_first.gifts_eq,
      h.account_second.gifts_eq]
    rw [List.lookup_append, lookup_append_left_comm hdisjoint hgifts₁ hgifts₂, ← List.lookup_append]
  · intro target
    simp only [attachments_append, readLines_append, haccount.attachments_eq, h.account_first.attachments_eq,
      h.account_second.attachments_eq]
    rw [List.lookup_append, lookup_append_left_comm hdisjoint hattached₁ hattached₂, ← List.lookup_append]

theorem perm_of_commute (hpost : BeginsAtTop post)
    (h : Commute c strict (readLines c strict start pre) first second) :
    (notedGifts c strict start (pre ++ second ++ first ++ post)).Perm
        (notedGifts c strict start (pre ++ first ++ second ++ post)) ∧
      (asides c strict start (pre ++ second ++ first ++ post)).Perm
        (asides c strict start (pre ++ first ++ second ++ post)) ∧
      worded c strict start (pre ++ second ++ first ++ post) =
        worded c strict start (pre ++ first ++ second ++ post) := by
  obtain ⟨haccount, -⟩ := h.account_post (rested_readLines c strict pre rested_start) hpost
  refine ⟨?_, ?_, ?_⟩
  · simp only [notedGifts_append, readLines_append, haccount.gifts_eq, h.account_first.gifts_eq,
      h.account_second.gifts_eq]
    exact (List.perm_append_comm_assoc ..).append_left _
  · simp only [asides_append, haccount.asides_eq, h.account_first.asides_eq,
      h.account_second.asides_eq, List.append_assoc]
    exact (List.perm_append_comm_assoc ..).append_left _
  · simp only [worded_append, readLines_append, haccount.worded_eq, h.account_first.worded_eq,
      h.account_second.worded_eq]
    rw [Bool.and_right_comm (worded c strict start pre)]

end Reader

/-- Two blocks that follow each other may come in either order, where they declare no variables, the names
of the components that one declares are none of the other's, and neither are the keys of the triggers that it
opens. The reading comes to its end either way, if it does, and leaves the same contents; and if the document
gives something to each attribute once at most, the messages of its errors and of its warnings are the same
too. -/
theorem blocks_in_either_order (hkeys : DistinctKeys c) (strict : Bool) {text text' : String}
    {pre first second post : List (List Char)}
    (htext : Text.lines text.toList = pre ++ first ++ second ++ post)
    (htext' : Text.lines text'.toList = pre ++ second ++ first ++ post)
    (hfirst : Reader.Block first) (hsecond : Reader.Block second) (hpost : Reader.BeginsAtTop post)
    (hnames : (Reader.namesIn c strict (readLines c strict .start pre) first).Disjoint
      (Reader.namesIn c strict (readLines c strict .start (pre ++ first)) second))
    (hopened : (Reader.keysIn c strict (readLines c strict .start pre) first).Disjoint
      (Reader.keysIn c strict (readLines c strict .start (pre ++ first)) second)) :
    (trace c strict text').isOk = (trace c strict text).isOk ∧
      (read c strict text).store.Alike (read c strict text').store ∧
      (((Reader.assignments c strict .start (Text.lines text.toList)).map Prod.fst).Nodup →
        ((read c strict text').errors.map Issue.message).Perm ((read c strict text).errors.map Issue.message) ∧
        ((read c strict text').warnings.map Issue.message).Perm
          ((read c strict text).warnings.map Issue.message)) := by
  rw [Reader.readLines_append] at hnames hopened
  have hcommute := Reader.commute_of_disjoint (Reader.rested_readLines c strict pre Reader.rested_start)
    hfirst hsecond hnames
  have hagree := Reader.agree_of_commute hfirst.top hsecond.top hpost hcommute hnames hopened
  obtain ⟨hgifts, hasides, hworded⟩ := Reader.perm_of_commute hpost hcommute
  rw [isOk_trace, isOk_trace, read, read, htext, htext']
  exact ⟨hworded, hagree.alike hkeys,
    fun honce => Reader.messages_perm (hagree.complaints_perm hkeys hgifts hasides honce)⟩

def forwardText : String := "note c4\n  mixer lead\n    source wobble\nlfo wobble\nlfo wobble"

def backwardText : String := "lfo wobble\nnote c4\n  mixer lead\n    source wobble\nlfo wobble"

theorem blocks_in_either_order_forwardText :
    (read patchCatalog false forwardText).store.Alike (read patchCatalog false backwardText).store ∧
      ((read patchCatalog false backwardText).errors.map Issue.message).Perm
        ((read patchCatalog false forwardText).errors.map Issue.message) := by
  have hblock {head : List Char} {body : List (List Char)} (htop : Reader.AtTop head)
      (hplain : ∀ line ∈ head :: body, Reader.declares line = false) : Reader.Block (head :: body) := by
    refine ⟨?_, hplain⟩
    rintro line ⟨⟩
    exact htop
  have htrigger : Reader.Block ["note c4".toList, "  mixer lead".toList, "    source wobble".toList] :=
    hblock ⟨by decide +kernel, by decide +kernel⟩ (by decide +kernel)
  have hmodulator : Reader.Block ["lfo wobble".toList] :=
    hblock ⟨by decide +kernel, by decide +kernel⟩ (by decide +kernel)
  have hnames : Reader.namesIn patchCatalog false (readLines patchCatalog false .start [])
        ["note c4".toList, "  mixer lead".toList, "    source wobble".toList] = ["lead"] ∧
      Reader.namesIn patchCatalog false (readLines patchCatalog false .start
        ([] ++ ["note c4".toList, "  mixer lead".toList, "    source wobble".toList]))
        ["lfo wobble".toList] = ["wobble"] := by
    decide +kernel
  have hopened : Reader.keysIn patchCatalog false (readLines patchCatalog false .start
        ([] ++ ["note c4".toList, "  mixer lead".toList, "    source wobble".toList]))
        ["lfo wobble".toList] = [] := by
    decide +kernel
  obtain ⟨-, halike, hmessages⟩ := @blocks_in_either_order patchCatalog distinctKeys_patchCatalog false
    forwardText backwardText [] _ _ ["lfo wobble".toList] (by decide +kernel) (by decide +kernel)
    htrigger hmodulator hmodulator.top (by rw [hnames.1, hnames.2]; simp)
    (by rw [hopened]; exact List.disjoint_nil_right _)
  exact ⟨halike, (hmessages (by decide +kernel)).1⟩

end Instrument.Document
