import Instrument.Proofs.Linking

namespace Instrument.Document

variable {c : Catalog} {s : Store}

namespace Reader

theorem mem_componentTargets {tables : ComponentTables} {target : Owner × String} :
    target ∈ componentTargets tables ↔ ∃ kind name x, ComponentTables.find? tables kind name = some x ∧
      (∃ cell, x.cell? target.2 = some cell) ∧ target.1 = .component x.name x.kind := by
  simp only [componentTargets, List.mem_flatMap, List.mem_map, Table.mem_values_iff,
    Table.mem_keys_iff, Option.isSome_iff_exists, ComponentTables.find?, Option.bind_eq_some_iff]
  constructor
  · rintro ⟨table, ⟨kind, htable⟩, x, ⟨name, hx⟩, attr, hattr, rfl⟩
    exact ⟨kind, name, x, ⟨table, htable, hx⟩, hattr, rfl⟩
  · rintro ⟨kind, name, x, ⟨table, htable, hx⟩, hcell, howner⟩
    exact ⟨table, ⟨kind, htable⟩, x, ⟨name, hx⟩, target.2, hcell, by rw [← howner]⟩

theorem mem_componentTargets_componentsAt (hs : s.Coherent) {scope : Option String} {owner : Owner}
    {attr : String} :
    (owner, attr) ∈ componentTargets (s.componentsAt scope) ↔
      ∃ kind name x cell, s.componentAt? scope kind name = some x ∧ x.cell? attr = some cell ∧
        owner = .component name kind := by
  rw [mem_componentTargets]
  constructor
  · rintro ⟨kind, name, x, hx, ⟨cell, hcell⟩, howner⟩
    have hfits := hs.component_fits hx
    rw [hfits.name_eq, hfits.kind_eq] at howner
    exact ⟨kind, name, x, cell, hx, hcell, howner⟩
  · rintro ⟨kind, name, x, cell, hx, hcell, howner⟩
    have hfits := hs.component_fits hx
    exact ⟨kind, name, x, hx, ⟨cell, hcell⟩, by rw [hfits.name_eq, hfits.kind_eq, howner]⟩

theorem mem_triggerTargets {key : String} {x : Trigger} (hx : s.trigger? key = some x) (hkey : x.key = key)
    {target : Owner × String} :
    target ∈ triggerTargets x ↔ target ∈ componentTargets (s.componentsAt (some key)) ∨
      ∃ attr ∈ x.attributes.keys, target = (.trigger key x.kind, attr) := by
  have hlocal : s.componentsAt (some key) = x.components := by simp [Store.componentsAt, hx]
  simp only [triggerTargets, List.mem_append, List.mem_map, hlocal, hkey, eq_comm]

theorem exists_trigger_of_componentAt? {key kind name : String} {x : Component}
    (hx : s.componentAt? (some key) kind name = some x) : ∃ y, s.trigger? key = some y := by
  cases hy : s.trigger? key with
  | none => simp [Store.componentAt?, Store.componentsAt, hy] at hx
  | some y => exact ⟨y, rfl⟩

theorem mem_targets_of_coherent (hs : s.Coherent)
    (hkeys : ∀ {key x}, s.trigger? key = some x → x.key = key) {owner : Owner} {attr : String} :
    (owner, attr) ∈ targets s ↔ ∃ cell, s.HasCell owner attr cell := by
  simp only [targets, List.mem_append, List.mem_flatMap, Table.mem_values_iff]
  constructor
  · rintro (hglobal | ⟨x, ⟨key, hx⟩, hx'⟩)
    · have hhome : (owner, attr) ∈ componentTargets (s.componentsAt none) := hglobal
      obtain ⟨kind, name, y, cell, hy, hcell, rfl⟩ := (mem_componentTargets_componentsAt hs).1 hhome
      exact ⟨cell, none, y, hy, hcell⟩
    · rcases (mem_triggerTargets hx (hkeys hx)).1 hx' with hlocal | ⟨attr', hattr, heq⟩
      · obtain ⟨kind, name, y, cell, hy, hcell, rfl⟩ := (mem_componentTargets_componentsAt hs).1 hlocal
        exact ⟨cell, some key, y, hy, hcell⟩
      · cases heq
        obtain ⟨cell, hcell⟩ := Option.isSome_iff_exists.1 ((Table.mem_keys_iff ..).1 hattr)
        exact ⟨cell, x, hx, rfl, hcell⟩
  · rintro ⟨cell, hcell⟩
    cases owner with
    | component name kind =>
        obtain ⟨scope, y, hy, hcell⟩ := hcell
        have hmem := (mem_componentTargets_componentsAt hs).2 ⟨kind, name, y, cell, hy, hcell, rfl⟩
        cases scope with
        | none => exact .inl hmem
        | some key =>
            obtain ⟨x, hx⟩ := exists_trigger_of_componentAt? hy
            exact .inr ⟨x, ⟨key, hx⟩, (mem_triggerTargets hx (hkeys hx)).2 (.inl hmem)⟩
    | trigger key kind =>
        obtain ⟨x, hx, rfl, hcell⟩ := hcell
        have hattr : attr ∈ x.attributes.keys :=
          (Table.mem_keys_iff ..).2 (Option.isSome_iff_exists.2 ⟨cell, hcell⟩)
        exact .inr ⟨x, ⟨key, hx⟩, (mem_triggerTargets hx (hkeys hx)).2 (.inr ⟨attr, hattr, rfl⟩)⟩

theorem mem_targets (h : Kept c s) {owner : Owner} {attr : String} :
    (owner, attr) ∈ targets s ↔ ∃ cell, s.HasCell owner attr cell :=
  mem_targets_of_coherent h.coherent fun hx => (h.headed hx).1

variable {strict : Bool} {r r' : Reader} {target : Owner × String} {a : Attribute}

theorem succeeds_complainAt {line : Nat} {complaint : Complaint} (h : complaint.severity = .error) :
    (r.complainAt line complaint).succeeds = false := by
  simp [succeeds, complainAt, Issue.isError, Issue.severity, h]

theorem succeeds_complainAt_of_false (h : r.succeeds = false) (line : Nat) (complaint : Complaint) :
    (r.complainAt line complaint).succeeds = false := by
  rw [succeeds, Bool.not_eq_false', List.any_eq_true] at h ⊢
  obtain ⟨issue, hissue, herror⟩ := h
  exact ⟨issue, List.mem_append_left _ hissue, herror⟩

theorem bindModulator_ok {modulators : List String} {attr name kind : String}
    {schema : Option AttributeSchema} {info : Option NameInfo}
    (h : bindModulator modulators attr schema name info = .ok kind) :
    ∃ i, info = some i ∧ kind = i.kind ∧ i.isVariable = false ∧
      ∀ s, schema = some s → i.kind ∈ s.acceptsModulation := by
  rw [bindModulator] at h
  split at h
  · cases h
  · next i hi =>
      split at h
      · cases h
      · obtain ⟨hinfo, hvariable⟩ := Option.filter_eq_some_iff.1 hi
        rw [Bool.not_eq_true'] at hvariable
        refine ⟨i, hinfo, ?_⟩
        split at h
        · injection h with h
          exact ⟨h.symm, hvariable, by simp⟩
        · next s =>
            split at h
            · cases h
            · split at h
              · cases h
              · next haccepts =>
                  injection h with h
                  refine ⟨h.symm, hvariable, ?_⟩
                  intro s' hs'
                  rw [← Option.some.inj hs']
                  simpa using haccepts

theorem bindModulator_error {modulators : List String} {attr name : String}
    {schema : Option AttributeSchema} {info : Option NameInfo} {complaint : Complaint}
    (h : bindModulator modulators attr schema name info = .error complaint) :
    complaint.severity = .error := by
  rw [bindModulator] at h
  repeat' split at h
  all_goals first | (injection h with h; rw [← h]; rfl) | cases h

theorem bound_bindValue (h : Pending c r.store target.1 target.2 a) :
    Binds c r.store target.1 target.2 a (bindValue c strict target a r.store).attr := by
  have hclean (hvalue : ∀ word, a.value ≠ some (.unresolved (.text word))) :
      Binds c r.store target.1 target.2 a a := by
    rcases h.value with hbound | ⟨word, hword⟩
    · exact ⟨hbound, .inl rfl⟩
    · exact absurd hword (hvalue word)
  simp only [bindValue]
  split
  · split
    · exact binds_withValue (.literal _)
    · next schema hschema => exact binds_bindWord hschema _
  · next hvalue => exact hclean hvalue

/-- An attribute that is done with: what is not bound has been reported as an error. -/
structure Settled (c : Catalog) (r : Reader) (owner : Owner) (attr : String) (a : Attribute) : Prop where
  value : ValueBound c r.store owner attr a.value
  modulation : ModulationBound c r.store owner attr a.modulation ∨
    (r.succeeds = false ∧ ∃ name, a.modulation = some (.named name))

theorem bindModulation_settles
    (hvalue : ValueBound c r.store target.1 target.2 a.value)
    (hmodulation : ModulationBound c r.store target.1 target.2 a.modulation ∨
      ∃ name, a.modulation = some (.named name)) :
    ∃ b, (r.bindModulation c target a).store = r.store.write target.1 target.2 b ∧
      ValueBound c r.store target.1 target.2 b.value ∧
      (ModulationBound c r.store target.1 target.2 b.modulation ∨
        ((r.bindModulation c target a).succeeds = false ∧ ∃ name, b.modulation = some (.named name))) ∧
      (r.succeeds = false → (r.bindModulation c target a).succeeds = false) := by
  rw [bindModulation]
  split
  · next name hname =>
      split
      · next kind hkind =>
          obtain ⟨info, hinfo, rfl, -, haccepts⟩ := bindModulator_ok hkind
          exact ⟨_, rfl, hvalue, .inl (.bound name info hinfo haccepts), fun h => h⟩
      · next complaint hcomplaint =>
          have herror := bindModulator_error hcomplaint
          refine ⟨a, rfl, hvalue, .inr ⟨succeeds_complainAt herror, name, hname⟩, ?_⟩
          intro h
          exact succeeds_complainAt_of_false h _ complaint
  · next hnone =>
      refine ⟨a, rfl, hvalue, ?_, fun h => h⟩
      rcases hmodulation with hbound | ⟨name, hname⟩
      · exact .inl hbound
      · exact absurd hname (hnone name)

theorem bindAttribute_settles (h : Pending c r.store target.1 target.2 (r.store.read target.1 target.2)) :
    ∃ b, (r.bindAttribute c strict target).store = r.store.write target.1 target.2 b ∧
      ValueBound c r.store target.1 target.2 b.value ∧
      (ModulationBound c r.store target.1 target.2 b.modulation ∨
        ((r.bindAttribute c strict target).succeeds = false ∧
          ∃ name, b.modulation = some (.named name))) ∧
      (r.succeeds = false → (r.bindAttribute c strict target).succeeds = false) := by
  have hbinds : Binds c r.store target.1 target.2 _ (bindValue c strict target _ r.store).attr :=
    bound_bindValue h
  have hpending := hbinds.pending h
  simp only [bindAttribute]
  split
  · next complaint _ =>
      have htold := bindModulation_settles (r := r.complainAt (r.lineFor r.attributeLines target) complaint)
        hbinds.value hpending.modulation
      obtain ⟨b, hstore, hvalue, hmodulation, hfails⟩ := htold
      refine ⟨b, hstore, hvalue, hmodulation, ?_⟩
      intro hfalse
      exact hfails (succeeds_complainAt_of_false hfalse _ complaint)
  · exact bindModulation_settles hbinds.value hpending.modulation

/-- While the attributes are bound one after the other, those that are not to do any more are settled. -/
structure Resolving (c : Catalog) (todo : List (Owner × String)) (r : Reader) : Prop where
  kept : Kept c r.store
  known : ∀ target ∈ todo, r.store.Knows target.1
  cells : ∀ {owner attr cell}, r.store.HasCell owner attr cell → (owner, attr) ∉ todo →
    ∃ a, cell = .ok a ∧ Settled c r owner attr a

theorem Settled.mono {owner : Owner} {attr : String}
    (hnames : ∀ {name info}, r.store.nameInfo? name = some info → r'.store.nameInfo? name = some info)
    (hfails : r.succeeds = false → r'.succeeds = false) (h : Settled c r owner attr a) :
    Settled c r' owner attr a where
  value := h.value.mono hnames
  modulation := by
    rcases h.modulation with hbound | ⟨hfalse, hnamed⟩
    · exact .inl (hbound.mono hnames)
    · exact .inr ⟨hfails hfalse, hnamed⟩

theorem Resolving.step {todo : List (Owner × String)} (h : Resolving c (target :: todo) r) :
    Resolving c todo (r.bindAttribute c strict target) := by
  have hknown : r.store.Knows target.1 := h.known target (List.mem_cons_self ..)
  have hsettles : ∃ b, (r.bindAttribute c strict target).store = r.store.write target.1 target.2 b ∧ _ :=
    bindAttribute_settles (h.kept.pending_read hknown)
  obtain ⟨b, hstore, hvalue, hmodulation, hfails⟩ := hsettles
  rw [h.kept.readable.write_eq h.kept.coherent hknown] at hstore
  have hnames {name info} (hinfo : r.store.nameInfo? name = some info) :
      (r.bindAttribute c strict target).store.nameInfo? name = some info := by
    rw [hstore, (r.store.keeps_setCell ..).nameInfo?_eq, hinfo]
  have hsettled : Settled c (r.bindAttribute c strict target) target.1 target.2 b := by
    refine ⟨hvalue.mono hnames, ?_⟩
    rcases hmodulation with hbound | hfailed
    · exact .inl (hbound.mono hnames)
    · exact .inr hfailed
  constructor
  · rw [hstore]
    exact h.kept.setCell hknown ⟨.inl hvalue, hmodulation.imp_right And.right⟩
  · intro other hother
    rw [hstore]
    exact (h.known other (List.mem_cons_of_mem _ hother)).setCell hknown
  · intro owner attr cell hcell hmem
    rw [hstore] at hcell
    rcases hcell.of_setCell h.kept.coherent hknown with ⟨rfl, rfl, rfl⟩ | ⟨hne, hcell⟩
    · exact ⟨b, rfl, hsettled⟩
    · have hmem' : (owner, attr) ∉ target :: todo := by
        rw [List.mem_cons, not_or]
        refine ⟨?_, hmem⟩
        rintro rfl
        exact hne ⟨rfl, rfl⟩
      obtain ⟨a, rfl, ha⟩ := h.cells hcell hmem'
      exact ⟨a, rfl, ha.mono hnames hfails⟩

theorem Resolving.run {todo : List (Owner × String)} :
    ∀ {r : Reader}, Resolving c todo r → Resolving c [] (todo.foldl (bindAttribute c strict) r) := by
  induction todo with
  | nil =>
      intro r h
      exact h
  | cons target rest ih =>
      intro r h
      exact ih h.step

theorem resolving_targets (h : Kept c r.store) : Resolving c (targets r.store) r where
  kept := h
  known target htarget := by
    obtain ⟨cell, hcell⟩ := (mem_targets h).1 htarget
    exact hcell.knows
  cells hcell hmem := absurd ((mem_targets h).2 ⟨_, hcell⟩) hmem

theorem settled_conclude (h : Linked c r) {owner : Owner} {attr : String} {cell : Cell}
    (hcell : (r.conclude c strict).store.HasCell owner attr cell) :
    ∃ a, cell = .ok a ∧ Settled c (r.conclude c strict) owner attr a := by
  have hall : Resolving c [] (r.bindAll c strict) := (resolving_targets h.kept).run
  obtain ⟨a, ha, hvalue, hmodulation⟩ := hall.cells hcell (List.not_mem_nil)
  exact ⟨a, ha, hvalue, hmodulation⟩

end Reader

/-- In the store that a document leaves, no value of an attribute is a word that was left open. What a
value names is registered, and the attribute takes variables or components of that kind. A modulator
with a kind has the kind that its name is registered with, which the attribute accepts; and in a
document without errors every modulator has one. -/
theorem references_hold (hkeys : DistinctKeys c) (strict : Bool) (text : String) {owner : Owner}
    {attr : String} {cell : Cell} (hcell : (read c strict text).store.HasCell owner attr cell) :
    ∃ a, cell = .ok a ∧
      (∀ word, a.value ≠ some (.unresolved word)) ∧
      (∀ name, a.value = some (.variableRef name) → ∃ n info schema, name = .text n ∧
        (read c strict text).store.nameInfo? n = some info ∧ info.isVariable = true ∧
        schemaOf c owner attr = some schema ∧ schema.canReferenceVariables = true) ∧
      (∀ ref, a.value = some (.componentRef ref) → ∃ n info schema, ref = .bound n info.kind ∧
        (read c strict text).store.nameInfo? n = some info ∧
        schemaOf c owner attr = some schema ∧ info.kind ∈ schema.acceptsComponents) ∧
      (∀ ref, a.modulation = some ref → ref.isBound = true → ∃ n info, ref = .bound n info.kind ∧
        (read c strict text).store.nameInfo? n = some info ∧
        ∀ schema, schemaOf c owner attr = some schema → info.kind ∈ schema.acceptsModulation) ∧
      ((read c strict text).succeeds = true → ∀ ref, a.modulation = some ref → ref.isBound = true) := by
  obtain ⟨a, ha, hvalue, hmodulation⟩ :=
    Reader.settled_conclude (Reader.linked_readLines hkeys strict (Text.lines text.toList)) hcell
  refine ⟨a, ha, ?_, ?_, ?_, ?_, ?_⟩
  · intro word hword
    rw [hword] at hvalue
    cases hvalue
  · intro name hname
    rw [hname] at hvalue
    cases hvalue with
    | declared n info schema hinfo hvariable hschema haccepts =>
        exact ⟨n, info, schema, rfl, hinfo, hvariable, hschema, haccepts⟩
  · intro ref href
    rw [href] at hvalue
    cases hvalue with
    | component n info schema hinfo hschema haccepts =>
        exact ⟨n, info, schema, rfl, hinfo, hschema, haccepts⟩
  · intro ref href hbound
    rw [href] at hmodulation
    rcases hmodulation with hmodulation | ⟨-, name, hname⟩
    · cases hmodulation with
      | bound n info hinfo haccepts => exact ⟨n, info, rfl, hinfo, haccepts⟩
    · rw [Option.some.inj hname] at hbound
      cases hbound
  · intro hsucceeds ref href
    rw [href] at hmodulation
    rcases hmodulation with hmodulation | ⟨hfails, -⟩
    · cases hmodulation with
      | bound n info hinfo haccepts => rfl
    · have hread : (read c strict text).succeeds = false := hfails
      rw [hread] at hsucceeds
      cases hsucceeds

def patchCatalog : Catalog :=
  let source : AttributeSchema :=
    ⟨"source", .componentRef, .null, .null, .null, .null, .null, .null, [], .null, .null, [], ["lfo"], []⟩
  ⟨.ofList [("lfo", ⟨"lfo", .modulator, .empty, .null⟩),
      ("mixer", ⟨"mixer", .processor, .ofList [("source", source)], .null⟩)],
    .ofList [("note", ⟨"note", .bool true, .bool true, .bool true, .bool true, .empty, .null⟩)], .empty⟩

def patchText : String := "note c4\n  mixer lead\n    source wobble\nlfo wobble"

theorem no_underscore_patchCatalog :
    ∀ kind, patchCatalog.isTriggerKind kind = true → '_' ∉ kind.toList := by
  intro kind hkind
  have hmem : kind ∈ patchCatalog.triggers.keys := (Table.mem_keys_iff ..).2 hkind
  have hkeys : patchCatalog.triggers.keys = ["note"] := by decide +kernel
  rw [hkeys, List.mem_singleton] at hmem
  rw [hmem]
  decide +kernel

theorem distinctKeys_patchCatalog : DistinctKeys patchCatalog :=
  distinctKeys_of_no_underscore no_underscore_patchCatalog

theorem references_hold_patchText :
    DistinctKeys patchCatalog ∧ ∃ cell,
      (read patchCatalog false patchText).store.HasCell (.component "lead" "mixer") "source" cell ∧
        ∃ a, cell = .ok a ∧ ∀ word, a.value ≠ some (.unresolved word) := by
  have hsome : (((read patchCatalog false patchText).store.componentAt? (some "note_c4") "mixer" "lead").bind
      (·.cell? "source")).isSome = true := by
    decide +kernel
  obtain ⟨cell, hcell⟩ := Option.isSome_iff_exists.1 hsome
  obtain ⟨x, hx, hcell⟩ := Option.bind_eq_some_iff.1 hcell
  have hhas : (read patchCatalog false patchText).store.HasCell (.component "lead" "mixer") "source" cell :=
    ⟨some "note_c4", x, hx, hcell⟩
  obtain ⟨a, ha, hvalue, -⟩ := references_hold distinctKeys_patchCatalog false patchText hhas
  exact ⟨distinctKeys_patchCatalog, cell, hhas, a, ha, hvalue⟩

end Instrument.Document
