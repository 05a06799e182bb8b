import Instrument.Proofs.Outcomes

namespace Instrument

namespace Store
variable {s t : Store} {name : String}

theorem SameVariables.placeVariable (h : s.SameVariables t) (v : Variable) :
    (s.placeVariable v).SameVariables (t.placeVariable v) where
  variableAt?_eq scope name := by rw [variableAt?_placeVariable, variableAt?_placeVariable, h.variableAt?_eq]
  override?_eq name key := by rw [override?_placeVariable, override?_placeVariable, h.override?_eq]

theorem SameVariables.addVariable (h : s.SameVariables t) (hname : t.nameInfo? name = s.nameInfo? name)
    (v : Value) (scope : ScopeKind) (key : Option String) (lower upper : Datum) (line : Option Int) :
    (s.addVariable name (.value v) scope key lower upper line).store.SameVariables
      (t.addVariable name (.value v) scope key lower upper line).store := by
  have hnamed (info : NameInfo) : (s.withName name info).SameVariables (t.withName name info) :=
    ((s.sameVariables_withName name info).symm.trans h).trans (t.sameVariables_withName name info)
  rw [addVariable_value_eq, addVariable_value_eq, isRegistered_congr hname, renews_congr hname]
  split
  · exact h
  · split
    · exact h.placeVariable _
    · split
      · exact h
      · exact (hnamed _).placeVariable _

theorem SameVariables.setOverride (h : s.SameVariables t) (name : String) (v : Value) (key : String) :
    (s.setOverride name (.value v) key).store.SameVariables (t.setOverride name (.value v) key).store where
  variableAt?_eq scope other := by
    rw [(keeps_setOverride ..).variableAt?_eq, (keeps_setOverride ..).variableAt?_eq, h.variableAt?_eq]
  override?_eq other key' := by
    rw [override?_setOverride, override?_setOverride, h.override?_eq]

end Store

namespace Document.Reader

open Text

variable {c : Catalog} {strict : Bool} {r r' r'' : Reader} {line : List Char} {lines : List (List Char)}
  {N : String → Prop}

theorem Gift.noted_congr
    (hvariables : ∀ name, r'.store.variableInfo? name = r.store.variableInfo? name) (text : List Char) :
    Gift.noted (text, r'.store.nameInfo? (String.ofList text)) =
      Gift.noted (text, r.store.nameInfo? (String.ofList text)) :=
  congrArg (text, ·) (hvariables _)

theorem Abreast.noted_gift? (h : Abreast N r r') (c : Catalog) (line : List Char)
    (hvariables : ∀ name, r'.store.variableInfo? name = r.store.variableInfo? name) :
    (r'.gift? c line).map (Prod.map id Gift.noted) = (r.gift? c line).map (Prod.map id Gift.noted) := by
  rw [gift?, gift?, h.assignment?_eq, Option.map_map, Option.map_map]
  congr 1
  funext given
  exact congrArg (given.1, ·) (Gift.noted_congr hvariables given.2)

theorem Abreast.aside_eq (h : Abreast N r r') (strict : Bool)
    (hname : ∀ name, r.named? c line = some name → ¬N name) :
    r'.aside c strict line = r.aside c strict line := by
  rw [aside, aside, h.assignment?_eq]
  cases hassigned : r.assignment? c line with
  | some assigned => rfl
  | none =>
      obtain ⟨complaints, hissues, hissues'⟩ := (h.step_of_no_assignment strict hname hassigned).issues_eq
      rw [hissues, hissues', List.drop_left, List.drop_left, List.map_map, List.map_map]
      rfl

theorem causeToStop?_of_issues {complaints : List Complaint}
    (h : r'.issues.map (·.complaint) = r.issues.map (·.complaint) ++ complaints) :
    causeToStop? r r' = complaints.findSome? Complaint.unlisted? := by
  have hnew : (r'.issues.drop r.issues.length).map (·.complaint) = complaints := by
    have hdrop := congrArg (List.drop r.issues.length) h
    rwa [← List.map_drop, ← List.length_map (·.complaint), List.drop_left, List.length_map] at hdrop
  rw [causeToStop?, ← hnew, List.findSome?_map]
  rfl

theorem Abreast.causeToStop?_eq (h : Abreast N r r') (strict : Bool)
    (hvariables : ∀ name, r'.store.variableInfo? name = r.store.variableInfo? name)
    (hname : ∀ name, r.named? c line = some name → ¬N name) :
    causeToStop? r' (r'.step c strict line) = causeToStop? r (r.step c strict line) := by
  cases hassigned : r.assignment? c line with
  | none =>
      obtain ⟨complaints, hissues, hissues'⟩ := (h.step_of_no_assignment strict hname hassigned).issues_eq
      rw [causeToStop?, causeToStop?, hissues, hissues', List.drop_left, List.drop_left, List.findSome?_map,
        List.findSome?_map]
      rfl
  | some assigned =>
      obtain ⟨⟨owner, attr⟩, text⟩ := assigned
      have hassigned' := (h.assignment?_eq c line).trans hassigned
      rw [causeToStop?_of_issues (issues_step_of_assignment? strict hassigned),
        causeToStop?_of_issues (issues_step_of_assignment? strict hassigned'),
        ← findSome?_saidOfGift_noted, Gift.noted_congr hvariables, findSome?_saidOfGift_noted]

/-- Some lines declare the same names, open the same triggers, give the same to the attributes and are told
the same about, and none of them stops the one reader if none stops the other. -/
structure SameAccount (c : Catalog) (strict : Bool) (lines : List (List Char)) (r r' : Reader) : Prop where
  names_eq : namesIn c strict r' lines = namesIn c strict r lines
  keys_eq : keysIn c strict r' lines = keysIn c strict r lines
  gifts_eq : notedGifts c strict r' lines = notedGifts c strict r lines
  attachments_eq : attachments c strict r' lines = attachments c strict r lines
  asides_eq : asides c strict r' lines = asides c strict r lines
  worded_eq : worded c strict r' lines = worded c strict r lines

theorem SameAccount.symm (h : SameAccount c strict lines r r') : SameAccount c strict lines r' r :=
  ⟨h.names_eq.symm, h.keys_eq.symm, h.gifts_eq.symm, h.attachments_eq.symm, h.asides_eq.symm,
    h.worded_eq.symm⟩

theorem SameAccount.trans (h : SameAccount c strict lines r r') (h' : SameAccount c strict lines r' r'') :
    SameAccount c strict lines r r'' :=
  ⟨h'.names_eq.trans h.names_eq, h'.keys_eq.trans h.keys_eq, h'.gifts_eq.trans h.gifts_eq,
    h'.attachments_eq.trans h.attachments_eq, h'.asides_eq.trans h.asides_eq,
    h'.worded_eq.trans h.worded_eq⟩

theorem notedGifts_cons (c : Catalog) (strict : Bool) (r : Reader) (line : List Char)
    (rest : List (List Char)) :
    notedGifts c strict r (line :: rest) = notedGifts c strict (r.step c strict line) rest ++
      ((r.gift? c line).map (Prod.map id Gift.noted)).toList := by
  rw [notedGifts, gifts, List.map_append, notedGifts]
  cases r.gift? c line <;> rfl

theorem Abreast.account (hN : ∀ name, N name → isName name.toList = true) (lines : List (List Char)) :
    ∀ {r r'}, Abreast N r r' → (∀ name, r'.store.variableInfo? name = r.store.variableInfo? name) →
    (∀ name ∈ namesIn c strict r lines, ¬N name) →
    ((∀ line ∈ lines, declares line = false) ∨ ∀ name, ¬N name) →
      SameAccount c strict lines r r' ∧ Abreast N (readLines c strict r lines) (readLines c strict r' lines) := by
  induction lines with
  | nil =>
      intro r r' h _ _ _
      exact ⟨⟨rfl, rfl, rfl, rfl, rfl, rfl⟩, h⟩
  | cons line rest ih =>
      intro r r' h hvariables havoid hplain
      have hname : ∀ name, r.named? c line = some name → ¬N name := by
        intro name hnamed hmem
        refine havoid name (List.mem_append_left _ ?_) hmem
        rw [Option.mem_toList, declaredName?, Option.filter_eq_some_iff]
        exact ⟨hnamed, hN name hmem⟩
      have hstep := h.step strict hname
      have hvariables' : ∀ name, (r'.step c strict line).store.variableInfo? name =
          (r.step c strict line).store.variableInfo? name := by
        intro name
        rcases hplain with hplain | hall
        · have hline := hplain line List.mem_cons_self
          rw [variableInfo?_step hline, variableInfo?_step hline, hvariables]
        · rw [Store.variableInfo?, Store.variableInfo?, hstep.nameInfo?_eq name (hall name)]
      obtain ⟨hsame, hlast⟩ := ih hstep hvariables'
        (fun name hmem => havoid name (List.mem_append_right _ hmem))
        (hplain.imp_left fun hplain line hline => hplain line (List.mem_cons_of_mem _ hline))
      refine ⟨⟨?_, ?_, ?_, ?_, ?_, ?_⟩, hlast⟩
      · rw [namesIn, namesIn, declaredName?, declaredName?, h.named?_eq, hsame.names_eq]
      · rw [keysIn, keysIn, h.entered?_eq, hsame.keys_eq]
      · rw [notedGifts_cons, notedGifts_cons, h.noted_gift? c line hvariables, hsame.gifts_eq]
      · rw [attachments, attachments, h.attachment?_eq, hsame.attachments_eq]
      · rw [asides, asides, h.aside_eq strict hname, hsame.asides_eq]
      · rw [worded, worded, h.causeToStop?_eq strict hvariables hname, hsame.worded_eq]

/-- Readers that hold open the same, know the same names and variables and are at the same line. -/
structure Level (r r' : Reader) : Prop where
  abreast : Abreast (fun _ => False) r r'
  line_eq : r'.line = r.line
  sameVariables : r.store.SameVariables r'.store

theorem Level.nameInfo?_eq (h : Level r r') (name : String) :
    r'.store.nameInfo? name = r.store.nameInfo? name :=
  h.abreast.nameInfo?_eq name id

theorem Level.complain (h : Level r r') (complaint : Complaint) :
    Level (r.complain complaint) (r'.complain complaint) :=
  ⟨(h.abreast.complain complaint).abreast, h.line_eq, h.sameVariables⟩

theorem Level.declareHere (h : Level r r') (c : Catalog) (name : String) (v : Value)
    (range : Option Interval) :
    (r.declareHere c name v range).store.SameVariables (r'.declareHere c name v range).store := by
  have hadded (scope : ScopeKind) (key : Option String) :
      (r.addVariable name v range scope key).store.SameVariables (r'.addVariable name v range scope key).store := by
    simp only [Reader.addVariable, h.line_eq]
    exact h.sameVariables.addVariable (h.nameInfo?_eq name) ..
  rw [Reader.declareHere, Reader.declareHere, h.abreast.scope_eq]
  split
  · rw [store_declareGlobal, store_declareGlobal]
    exact hadded ..
  · simp only [declareIn, h.nameInfo?_eq]
    split
    · exact hadded ..
    · split
      · exact h.sameVariables
      · split
        · exact h.sameVariables
        · split <;> exact h.sameVariables.setOverride ..

theorem Level.declare (h : Level r r') (c : Catalog) (content : List Char) :
    (r.declare c content).store.SameVariables (r'.declare c content).store := by
  have hvalue (text : List Char) : r'.variableValue text = r.variableValue text := by
    simp only [variableValue, h.nameInfo?_eq]
  simp only [Reader.declare, hvalue]
  split
  · exact h.sameVariables
  · refine Level.declareHere ?_ c _ _ _
    split
    · exact h.complain _
    · exact h

theorem Level.step (h : Level r r') (c : Catalog) (strict : Bool) (line : List Char) :
    Level (r.step c strict line) (r'.step c strict line) := by
  have habreast : Abreast (fun _ => False) (r.step c strict line) (r'.step c strict line) :=
    h.abreast.step strict fun _ _ => id
  refine ⟨habreast, ?_, ?_⟩
  · rw [(records_step strict line).line_eq, (records_step strict line).line_eq, h.line_eq]
  · cases hpasses : r.passes line with
    | true =>
        rw [step_of_passes hpasses, step_of_passes ((h.abreast.passes_eq line).trans hpasses)]
        exact h.sameVariables
    | false =>
        have hready : Level (r.ready line) (r'.ready line) := by
          refine ⟨h.abreast.ready line, ?_, ?_⟩
          · simp only [ready, settle_eq, h.line_eq]
          · rw [store_ready, store_ready]
            exact h.sameVariables
        have hpasses' := (h.abreast.passes_eq line).trans hpasses
        by_cases hdeclares : r.kindOf c line = .declaration
        · have hdeclares' := (h.abreast.kindOf_eq c line).trans hdeclares
          rw [step_of_kindOf hpasses hdeclares, step_of_kindOf hpasses' hdeclares']
          exact hready.declare c _
        · have hdeclares' : r'.kindOf c line ≠ .declaration := by rwa [h.abreast.kindOf_eq]
          have hsame := (effect_of_not_passes strict hpasses).sameVariables hdeclares
          have hsame' := (effect_of_not_passes strict hpasses').sameVariables hdeclares'
          exact (hsame.symm.trans hready.sameVariables).trans hsame'

theorem Level.readLines (c : Catalog) (strict : Bool) (lines : List (List Char)) :
    ∀ {r r'}, Level r r' → Level (readLines c strict r lines) (readLines c strict r' lines) := by
  induction lines with
  | nil =>
      intro r r' h
      exact h
  | cons line rest ih =>
      intro r r' h
      exact ih (h.step c strict line)

structure AtTop (line : List Char) : Prop where
  saysNothing_eq : saysNothing (strip line) = false
  indent_eq : indentOf line = 0

theorem AtTop.passes_eq (h : AtTop line) (r : Reader) : r.passes line = false := by
  rw [passes, h.saysNothing_eq, h.indent_eq, skips]
  cases r.skip <;> simp

theorem AtTop.ready_settle (h : AtTop line) (r : Reader) : (r.settle 0).ready line = r.ready line := by
  have hnext : ({ r.settle 0 with line := (r.settle 0).line + 1 } : Reader) =
      ({ r with line := r.line + 1 } : Reader).settle 0 := by
    rw [settle_eq, settle_eq]
    rfl
  rw [ready, ready, h.indent_eq, hnext, settle_settle (Nat.le_refl 0)]

theorem AtTop.step_settle (h : AtTop line) (r : Reader) :
    (r.settle 0).step c strict line = r.step c strict line := by
  rw [step_of_not_passes (h.passes_eq r), step_of_not_passes (h.passes_eq _), h.ready_settle]

theorem AtTop.account_settle (h : AtTop line) (c : Catalog) (strict : Bool) (rest : List (List Char))
    (r : Reader) : SameAccount c strict (line :: rest) r (r.settle 0) := by
  have hpasses := (h.passes_eq (r.settle 0)).trans (h.passes_eq r).symm
  have hready := h.ready_settle r
  have hstep : (r.settle 0).step c strict line = r.step c strict line := h.step_settle r
  have hassigned : (r.settle 0).assignment? c line = r.assignment? c line := by
    rw [assignment?, assignment?, hpasses, hready]
  constructor
  · rw [namesIn, namesIn, hstep, declaredName?, declaredName?, named?, named?, hpasses, kindOf, kindOf, hready]
  · rw [keysIn, keysIn, hstep, entered?, entered?, hpasses, kindOf, kindOf, hready]
  · rw [notedGifts, notedGifts, gifts, gifts, hstep, gift?, gift?, hassigned, store_settle]
  · rw [attachments, attachments, hstep, attachment?, attachment?, hpasses, kindOf, kindOf, hready]
  · rw [asides, asides, hstep, aside, aside, hassigned, hstep, issues_settle]
  · rw [worded, worded, hstep, causeToStop?, causeToStop?, issues_settle]

def Rested (r : Reader) : Prop := r.frames = [] → r.trigger = none

theorem rested_start : Rested start := fun _ => rfl

theorem Rested.settle (h : Rested r) (indent : Nat) : Rested (r.settle indent) := by
  intro hframes
  cases hcloses : r.closes indent with
  | true => rw [(settle_of_closes hcloses).2.2, scope, hframes, List.head?_nil, Option.filter_none]
  | false =>
      rw [(settle_of_not_closes hcloses).2.2]
      exact h ((frames_of_not_closes hcloses).symm.trans hframes)

theorem Rested.step (h : Rested r) (line : List Char) : Rested (r.step c strict line) := by
  have hnext : Rested { r with line := r.line + 1 } := h
  cases hpasses : r.passes line with
  | true =>
      rw [step_of_passes hpasses]
      exact hnext
  | false =>
      rw [step_of_not_passes hpasses]
      have hready : Rested (r.ready line) := hnext.settle (indentOf line)
      obtain ⟨e, hopens⟩ : ∃ e, Opens (r.ready line)
        ((r.ready line).dispatch c strict (indentOf line) (strip line)) e := ⟨_, opens_dispatch ..⟩
      intro hframes
      cases hopens with
      | trigger frame hopened =>
          rw [hopened] at hframes
          cases hframes
      | component cursor hfree hkept htrigger =>
          rw [htrigger]
          exact hready (hkept.symm.trans hframes)
      | plain indent hopen =>
          rw [hopen.trigger_eq]
          exact hready (hopen.frames_eq.symm.trans hframes)
      | assigned indent attr owner howner hopen =>
          rw [hopen.trigger_eq]
          exact hready (hopen.frames_eq.symm.trans hframes)

theorem rested_readLines (c : Catalog) (strict : Bool) (lines : List (List Char)) :
    ∀ {r}, Rested r → Rested (readLines c strict r lines) :=
  readLines_keeps (fun line h => h.step line) lines

theorem Rested.settle_zero (h : Rested r) : r.settle 0 =
    { r with frames := [], component := none, trigger := none, attr := none, skip := none } := by
  have hframes : r.frames.dropWhile (0 ≤ ·.indent) = [] := by simp
  have hcursor {α : Type} {indent : α → Nat} (cursor : Option α) :
      cursor.filter (indent · < 0) = none := by cases cursor <;> simp
  have htrigger : (if r.closes 0 then none else r.trigger) = none := by
    rw [closes]
    cases hr : r.frames with
    | nil => simpa using h hr
    | cons frame rest => simp
  rw [settle_eq]
  simp only [hframes, hcursor, ite_self, List.head?_nil, Option.filter_none, htrigger]

theorem Rested.abreast (h : Rested r) (h' : Rested r')
    (hnames : ∀ name, ¬N name → r'.store.nameInfo? name = r.store.nameInfo? name) :
    Abreast N (r.settle 0) (r'.settle 0) := by
  rw [h.settle_zero, h'.settle_zero]
  exact ⟨rfl, rfl, rfl, rfl, rfl, hnames⟩

theorem Rested.allOpen_settle (h : Rested r) (p : Owner → Prop) : AllOpen p (r.settle 0) := by
  rw [h.settle_zero]
  exact ⟨by simp, by simp, by simp, by simp⟩

end Document.Reader

end Instrument
