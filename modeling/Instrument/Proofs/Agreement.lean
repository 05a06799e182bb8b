import Instrument.Proofs.Outcomes
import Mathlib.Data.Option.Basic

namespace Instrument

/-- The same component, whatever the order of its attributes. The edition is no part of what a document
says. -/
structure Component.Alike (x y : Component) : Prop where
  name_eq : y.name = x.name
  kind_eq : y.kind = x.kind
  scope_eq : y.scope = x.scope
  key_eq : y.key = x.key
  cell?_eq : ∀ attr, y.cell? attr = x.cell? attr

def ComponentTables.Alike (tables tables' : ComponentTables) : Prop :=
  ∀ kind name, Option.Rel Component.Alike (tables.find? kind name) (tables'.find? kind name)

structure Trigger.Alike (x y : Trigger) : Prop where
  key_eq : y.key = x.key
  kind_eq : y.kind = x.kind
  components : x.components.Alike y.components
  attributes_eq : ∀ attr, y.attributes.get? attr = x.attributes.get? attr
  overrides_eq : ∀ name, y.overrides.get? name = x.overrides.get? name

/-- The same contents, in whatever order they came. -/
structure Store.Alike (s t : Store) : Prop where
  nameInfo?_eq : ∀ name, t.nameInfo? name = s.nameInfo? name
  components : s.components.Alike t.components
  globalVariables_eq : ∀ name, t.globalVariables.get? name = s.globalVariables.get? name
  localVariables_eq : ∀ name key, t.local? name key = s.local? name key
  triggers : ∀ key, Option.Rel Trigger.Alike (s.trigger? key) (t.trigger? key)

namespace Store

variable {c : Catalog} {s t : Store} {key kind name : String} {scope : Option String}

theorem Coherent.cell?_eq_some_iff (hs : s.Coherent) {x : Component}
    (hx : s.componentAt? scope kind name = some x) {attr : String} {cell : Cell} :
    x.cell? attr = some cell ↔ s.HasCell (.component name kind) attr cell := by
  constructor
  · intro hcell
    exact ⟨scope, x, hx, hcell⟩
  · rintro ⟨scope', y, hy, hcell⟩
    rwa [Option.some.inj ((hs.component?_eq_some hx).symm.trans (hs.component?_eq_some hy))]

theorem isSome_componentAt?_congr (hs : s.Coherent) (ht : t.Coherent)
    (hnames : ∀ name, t.nameInfo? name = s.nameInfo? name) (scope : Option String) (kind name : String) :
    (t.componentAt? scope kind name).isSome = (s.componentAt? scope kind name).isSome := by
  rw [Bool.eq_iff_iff, Option.isSome_iff_exists, Option.isSome_iff_exists]
  have hsame := (ht.holds_iff name (.componentTable scope kind)).trans
    (by rw [hnames, ← hs.holds_iff name (.componentTable scope kind)])
  exact hsame

theorem componentAt?_rel (hs : s.Coherent) (ht : t.Coherent)
    (hnames : ∀ name, t.nameInfo? name = s.nameInfo? name)
    (hcells : ∀ {owner attr cell}, t.HasCell owner attr cell ↔ s.HasCell owner attr cell)
    (scope : Option String) (kind name : String) :
    Option.Rel Component.Alike (s.componentAt? scope kind name) (t.componentAt? scope kind name) := by
  have hsome := isSome_componentAt?_congr hs ht hnames scope kind name
  cases hx : s.componentAt? scope kind name with
  | none =>
      rw [hx, Option.isSome_none, Option.isSome_eq_false_iff, Option.isNone_iff_eq_none] at hsome
      rw [hsome]
      exact .none
  | some x =>
      rw [hx, Option.isSome_some, Option.isSome_iff_exists] at hsome
      obtain ⟨y, hy⟩ := hsome
      have hfits := hs.component_fits hx
      have hfits' := ht.component_fits hy
      rw [hy]
      refine .some ⟨hfits'.name_eq.trans hfits.name_eq.symm, hfits'.kind_eq.trans hfits.kind_eq.symm,
        hfits'.scope_eq.trans hfits.scope_eq.symm, hfits'.key_eq.trans hfits.key_eq.symm, ?_⟩
      intro attr
      refine Option.ext fun cell => ?_
      rw [ht.cell?_eq_some_iff hy, hs.cell?_eq_some_iff hx, hcells]

theorem trigger?_rel (hs : s.Coherent) (ht : t.Coherent)
    (hnames : ∀ name, t.nameInfo? name = s.nameInfo? name)
    (hcells : ∀ {owner attr cell}, t.HasCell owner attr cell ↔ s.HasCell owner attr cell)
    (hvariables : s.SameVariables t) (hhead : t.head? key = s.head? key) :
    Option.Rel Trigger.Alike (s.trigger? key) (t.trigger? key) := by
  cases hx : s.trigger? key with
  | none =>
      rw [head?, head?, hx, Option.map_none, Option.map_eq_none_iff] at hhead
      rw [hhead]
      exact .none
  | some x =>
      rw [head?, head?, hx, Option.map_some, Option.map_eq_some_iff] at hhead
      obtain ⟨y, hy, heq⟩ := hhead
      obtain ⟨hkey, hkind⟩ := Prod.mk.inj heq
      rw [hy]
      refine .some ⟨hkey, hkind, ?_, ?_, ?_⟩
      · intro kind name
        have hrel := componentAt?_rel hs ht hnames hcells (some key) kind name
        rwa [componentAt?, componentAt?, componentsAt, componentsAt, hx, hy] at hrel
      · intro attr
        refine Option.ext fun cell => ?_
        have hcell : t.HasCell (.trigger key x.kind) attr cell ↔ s.HasCell (.trigger key x.kind) attr cell :=
          hcells
        simpa [HasCell, hx, hy, hkind] using hcell
      · intro name
        have hsame := hvariables.override?_eq name key
        rwa [override?, override?, hx, hy] at hsame

theorem alike_of_coherent (hs : s.Coherent) (ht : t.Coherent)
    (hnames : ∀ name, t.nameInfo? name = s.nameInfo? name)
    (hcells : ∀ {owner attr cell}, t.HasCell owner attr cell ↔ s.HasCell owner attr cell)
    (hvariables : s.SameVariables t) (hheads : ∀ key, t.head? key = s.head? key) : s.Alike t where
  nameInfo?_eq := hnames
  components := componentAt?_rel hs ht hnames hcells none
  globalVariables_eq := hvariables.variableAt?_eq none
  localVariables_eq name key := by
    rw [local?_eq, local?_eq, hvariables.variableAt?_eq]
  triggers key := trigger?_rel hs ht hnames hcells hvariables (hheads key)

end Store

namespace Document

variable {c : Catalog} {strict : Bool} {s t : Store} {lines lines' : List (List Char)}

namespace Reader

theorem outcome_congr (hnames : ∀ name, t.nameInfo? name = s.nameInfo? name) (modulator : Option String)
    (target : Owner × String) (g : Gift) :
    outcome c strict t modulator target g = outcome c strict s modulator target g := by
  simp only [outcome, concluded, boundModulation, bindValue, hnames]

theorem charge_congr (hnames : ∀ name, t.nameInfo? name = s.nameInfo? name) (modulator : Option String)
    (target : Owner × String) (g : Gift) :
    charge c strict t modulator target g = charge c strict s modulator target g := by
  simp only [charge, toldOfGift, modulationComplaint?, bindValue, hnames]

theorem head?_conclude {r : Reader} (hr : r.store.Legible c) (strict : Bool) (key : String) :
    (r.conclude c strict).store.head? key = r.store.head? key := by
  suffices hall : ∀ key, (r.conclude c strict).store.head? key = r.store.head? key from hall key
  refine conclude_induction (p := fun s => ∀ key, s.head? key = r.store.head? key) c strict (fun _ => rfl) ?_
  intro s target a htarget hheads key
  rw [Store.head?_write ((present_of_mem_targets hr.headed htarget).congr hheads), hheads]

/-- The triggers of a document are those that its lines open, each of the kind that its key tells. -/
theorem head?_eq_of_keys (hkeys : DistinctKeys c) (strict : Bool) (lines lines' : List (List Char))
    (hsame : ∀ key, key ∈ keysIn c strict start lines' ↔ key ∈ keysIn c strict start lines) (key : String) :
    (readLines c strict start lines').store.head? key = (readLines c strict start lines).store.head? key := by
  have hlinked := linked_readLines hkeys strict lines
  have hlinked' := linked_readLines hkeys strict lines'
  have hsome : ((readLines c strict start lines').store.trigger? key).isSome ↔
      ((readLines c strict start lines).store.trigger? key).isSome := by
    rw [isSome_trigger?_readLines hkeys key lines' linked_start,
      isSome_trigger?_readLines hkeys key lines linked_start, hsame]
  rw [Store.head?, Store.head?]
  cases hx : (readLines c strict start lines).store.trigger? key with
  | none =>
      rw [hx, Option.isSome_none] at hsome
      have hnone : ((readLines c strict start lines').store.trigger? key) = none := by simpa using hsome
      rw [hnone]
  | some x =>
      rw [hx, Option.isSome_some, Option.isSome_iff_exists] at hsome
      obtain ⟨y, hy⟩ := hsome.2 rfl
      obtain ⟨hkey, name, hheader, heq⟩ := hlinked.kept.headed hx
      obtain ⟨hkey', name', hheader', heq'⟩ := hlinked'.kept.headed hy
      obtain ⟨hkind, -⟩ := hkeys hheader hheader' (heq.symm.trans heq')
      rw [hy, Option.map_some, Option.map_some, hkey, hkey', hkind]

/-- Two documents that give the same to each attribute, register the same names, declare the same variables
and open the same triggers. -/
structure Agree (c : Catalog) (strict : Bool) (lines lines' : List (List Char)) : Prop where
  nameInfo?_eq : ∀ name, (readLines c strict start lines').store.nameInfo? name =
    (readLines c strict start lines).store.nameInfo? name
  sameVariables : (readLines c strict start lines).store.SameVariables (readLines c strict start lines').store
  keys_iff : ∀ key, key ∈ keysIn c strict start lines' ↔ key ∈ keysIn c strict start lines
  gift_eq : ∀ target, (notedGifts c strict start lines').lookup target =
    (notedGifts c strict start lines).lookup target
  modulator_eq : ∀ target, (attachments c strict start lines').lookup target =
    (attachments c strict start lines).lookup target

theorem Agree.alike (h : Agree c strict lines lines') (hkeys : DistinctKeys c) :
    Store.Alike ((readLines c strict start lines).conclude c strict).store
      ((readLines c strict start lines').conclude c strict).store := by
  have hlegible : (readLines c strict start lines).store.Legible c := (founded_readLines c strict lines).legible
  have hlegible' : (readLines c strict start lines').store.Legible c := (founded_readLines c strict lines').legible
  refine Store.alike_of_coherent (legible_conclude hlegible).coherent (legible_conclude hlegible').coherent
    ?_ ?_ ?_ ?_
  · intro name
    rw [nameInfo?_conclude, nameInfo?_conclude, h.nameInfo?_eq]
  · intro owner attr cell
    rw [hasCell_conclude_readLines hkeys, hasCell_conclude_readLines hkeys, h.gift_eq, h.modulator_eq]
    simp only [outcome_congr h.nameInfo?_eq]
  · exact ((sameVariables_conclude c strict _).symm.trans h.sameVariables).trans
      (sameVariables_conclude c strict _)
  · intro key
    rw [head?_conclude hlegible', head?_conclude hlegible,
      head?_eq_of_keys hkeys strict lines lines' h.keys_iff]

/-- The same is said about documents that agree, where each attribute is given something once. -/
theorem Agree.complaints_perm (h : Agree c strict lines lines') (hkeys : DistinctKeys c)
    (hgifts : (notedGifts c strict start lines').Perm (notedGifts c strict start lines))
    (hasides : (asides c strict start lines').Perm (asides c strict start lines))
    (honce : ((assignments c strict start lines).map Prod.fst).Nodup) :
    (((readLines c strict start lines').conclude c strict).issues.map (·.complaint)).Perm
      (((readLines c strict start lines).conclude c strict).issues.map (·.complaint)) := by
  rw [← map_fst_gifts] at honce
  have honce' : ((gifts c strict start lines').map Prod.fst).Nodup := by
    have htargets := hgifts.map Prod.fst
    rw [map_fst_notedGifts, map_fst_notedGifts] at htargets
    exact htargets.nodup_iff.2 honce
  refine (complaints_conclude_readLines hkeys strict lines' honce').trans (.trans ?_
    (complaints_conclude_readLines hkeys strict lines honce).symm)
  simp only [charge_congr h.nameInfo?_eq, h.modulator_eq]
  exact hasides.append (hgifts.flatMap_right _)

theorem map_message_issuesWith (r : Reader) (q : Complaint → Bool) :
    ((r.issuesWith fun i => q i.complaint).map Issue.message).Perm
      (((r.issues.map (·.complaint)).filter q).map Complaint.message) := by
  rw [issuesWith, List.filter_map, List.map_map]
  exact (List.mergeSort_perm ..).map _

theorem messages_perm {r r' : Reader}
    (h : (r'.issues.map (·.complaint)).Perm (r.issues.map (·.complaint))) :
    (r'.errors.map Issue.message).Perm (r.errors.map Issue.message) ∧
      (r'.warnings.map Issue.message).Perm (r.warnings.map Issue.message) := by
  have hboth (q : Complaint → Bool) : ((r'.issuesWith fun i => q i.complaint).map Issue.message).Perm
      ((r.issuesWith fun i => q i.complaint).map Issue.message) :=
    (map_message_issuesWith r' q).trans (((h.filter q).map _).trans (map_message_issuesWith r q).symm)
  exact ⟨hboth fun complaint => complaint.severity == .error,
    hboth fun complaint => !(complaint.severity == .error)⟩

end Reader

end Document

end Instrument
