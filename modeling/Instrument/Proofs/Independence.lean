import Instrument.Proofs.Confined
import Instrument.Proofs.Snapshots

namespace Instrument

/-- Tables of attributes that differ in one attribute at most. It keeps its place, or comes last if it was
not there. -/
structure SameBut (attr : String) (cells cells' : Table Cell) : Prop where
  get?_eq : ∀ other, other ≠ attr → cells'.get? other = cells.get? other
  keys_eq : cells'.keys = if attr ∈ cells.keys then cells.keys else cells.keys ++ [attr]

theorem sameBut_insert (attr : String) (cells : Table Cell) (cell : Cell) :
    SameBut attr cells (cells.insert attr cell) where
  get?_eq _ hother := Table.get?_insert_of_ne hother ..
  keys_eq := Table.keys_insert ..

theorem Table.keys_modify {α : Type} (t : Table α) (key : String) (f : α → α) :
    (t.modify key f).keys = t.keys := by
  rw [Table.modify]
  cases h : t.get? key with
  | none => rfl
  | some a =>
      have hmem : key ∈ t.keys := (t.mem_keys_iff key).2 (by rw [h]; rfl)
      rw [Table.keys_insert, if_pos hmem]

theorem ComponentTables.keys_change (tables : ComponentTables) (kind name : String)
    (f : Component → Component) (other : String) :
    (change tables kind name f).keys = tables.keys ∧
      (ofKind (change tables kind name f) other).keys = (ofKind tables other).keys := by
  refine ⟨Table.keys_modify .., ?_⟩
  rw [ofKind, change, Table.get?_modify, ofKind]
  split
  · next h =>
      subst h
      cases tables.get? other with
      | none => rfl
      | some table => exact Table.keys_modify ..
  · rfl

def Trigger.bare (t : Trigger) : Trigger := { t with components := .empty }

def Owner.valueOperation (owner : Owner) (attr : String) (v : Option Value) : Operation :=
  match owner with
  | .component name _ => .setComponentAttribute name attr (Value.given v)
  | .trigger key _ => .setTriggerAttribute key attr (Value.given v)

def Owner.modulationOperation (owner : Owner) (attr : String) (ref : Option ComponentRef) : Operation :=
  match owner with
  | .component name _ => .setComponentModulation name attr ref
  | .trigger key _ => .setTriggerModulation key attr ref

namespace Store

/-- An owner of attributes that can be written: a component that is there, or any trigger. -/
def HasOwner (s : Store) (owner : Owner) : Prop :=
  ∀ name kind, owner = .component name kind → ∃ c, s.component? name = some c

def OwnerLiesIn (s : Store) (owner : Owner) (scope : Option String) (kind name : String) : Prop :=
  ∃ ownKind info, owner = .component name ownKind ∧ s.componentInfo? name = some info ∧
    info.home = scope ∧ info.kind = kind

def overridesOf (s : Store) (key : String) : Table (Option Value) :=
  ((s.trigger? key).map (·.overrides)).getD .empty

/-- Stores that differ in one attribute of one owner at most. If the owner is a trigger that was not there, it
is there after all others, with nothing else in it. -/
structure DiffersAt (owner : Owner) (attr : String) (s t : Store) : Prop where
  names_eq : t.names = s.names
  globalVariables_eq : t.globalVariables = s.globalVariables
  localVariables_eq : t.localVariables = s.localVariables
  overridesOf_eq : ∀ key, t.overridesOf key = s.overridesOf key
  kinds_eq : ∀ scope, (t.componentsAt scope).keys = (s.componentsAt scope).keys
  componentNames_eq : ∀ scope kind, (ComponentTables.ofKind (t.componentsAt scope) kind).keys =
    (ComponentTables.ofKind (s.componentsAt scope) kind).keys
  component_eq : ∀ scope kind name, ¬s.OwnerLiesIn owner scope kind name →
    t.componentAt? scope kind name = s.componentAt? scope kind name
  own_component : ∀ scope kind name c, s.OwnerLiesIn owner scope kind name →
    s.componentAt? scope kind name = some c →
      ∃ cells, t.componentAt? scope kind name = some { c with attributes := cells } ∧
        SameBut attr c.attributes cells
  triggerKeys_eq : (∀ key kind, owner ≠ .trigger key kind) → t.triggers.keys = s.triggers.keys
  trigger_eq : ∀ key, (∀ kind, owner ≠ .trigger key kind) →
    (t.trigger? key).map Trigger.bare = (s.trigger? key).map Trigger.bare
  own_trigger : ∀ key kind, owner = .trigger key kind →
    t.triggers.keys = (if key ∈ s.triggers.keys then s.triggers.keys else s.triggers.keys ++ [key]) ∧
      ∃ cells, t.trigger? key = some { s.triggerOrFresh key "" with attributes := cells } ∧
        SameBut attr (s.triggerCells key) cells

variable {s : Store} {owner : Owner} {attr : String}

theorem overridesOf_eq_of_bare {t : Store} {key : String}
    (h : (t.trigger? key).map Trigger.bare = (s.trigger? key).map Trigger.bare) :
    t.overridesOf key = s.overridesOf key := by
  have hbare (u : Store) : u.overridesOf key =
      (((u.trigger? key).map Trigger.bare).map (·.overrides)).getD .empty := by
    rw [overridesOf, Option.map_map]
    rfl
  rw [hbare, hbare, h]

theorem keys_componentsAt_changeComponent (s : Store) (name : String) (f : Component → Component)
    (scope : Option String) (kind : String) :
    ((s.changeComponent name f).componentsAt scope).keys = (s.componentsAt scope).keys ∧
      (ComponentTables.ofKind ((s.changeComponent name f).componentsAt scope) kind).keys =
        (ComponentTables.ofKind (s.componentsAt scope) kind).keys := by
  rw [changeComponent]
  cases s.componentInfo? name with
  | none => exact ⟨rfl, rfl⟩
  | some info =>
      simp only
      rw [componentsAt_changeTables s info rfl]
      split
      · exact ComponentTables.keys_change ..
      · exact ⟨rfl, rfl⟩

theorem bare_changeComponent (s : Store) (name key : String) (f : Component → Component) :
    ((s.changeComponent name f).trigger? key).map Trigger.bare = (s.trigger? key).map Trigger.bare := by
  obtain ⟨g, hg, htrigger⟩ := s.trigger?_changeComponent name key f
  rw [htrigger, Option.map_map]
  congr 1
  funext t
  obtain ⟨hkey, hkind, hattributes, hoverrides⟩ := hg t
  simp only [Function.comp_apply, Trigger.bare, hkey, hkind, hattributes, hoverrides]

theorem tables_changeComponent (s : Store) (name : String) (f : Component → Component) :
    (s.changeComponent name f).names = s.names ∧
      (s.changeComponent name f).globalVariables = s.globalVariables ∧
      (s.changeComponent name f).localVariables = s.localVariables ∧
      (s.changeComponent name f).triggers.keys = s.triggers.keys := by
  rw [changeComponent]
  cases s.componentInfo? name with
  | none => exact ⟨rfl, rfl, rfl, rfl⟩
  | some info =>
      simp only [changeTables]
      cases info.scope with
      | global => exact ⟨rfl, rfl, rfl, rfl⟩
      | trigger => exact ⟨rfl, rfl, rfl, Table.keys_modify ..⟩

theorem componentAt?_changeComponent (s : Store) (name ownKind : String) (f : Component → Component)
    (scope : Option String) (kind other : String) :
    (¬s.OwnerLiesIn (.component name ownKind) scope kind other →
      (s.changeComponent name f).componentAt? scope kind other = s.componentAt? scope kind other) ∧
    (s.OwnerLiesIn (.component name ownKind) scope kind other →
      (s.changeComponent name f).componentAt? scope kind other = (s.componentAt? scope kind other).map f) := by
  rw [changeComponent]
  constructor
  · intro helsewhere
    cases hinfo : s.componentInfo? name with
    | none => rfl
    | some info =>
        simp only [componentAt?_change]
        rw [if_neg]
        rintro ⟨rfl, rfl, rfl⟩
        exact helsewhere ⟨ownKind, info, rfl, hinfo, rfl, rfl⟩
  · rintro ⟨_, info, hname, hinfo, rfl, rfl⟩
    obtain ⟨rfl, -⟩ := Owner.component.inj hname
    simp only [hinfo, componentAt?_change, and_self, if_true]

theorem differsAt_changeComponent (s : Store) (name kind attr : String) (cell : Cell) :
    DiffersAt (.component name kind) attr s (s.changeComponent name (·.setCell attr cell)) where
  names_eq := (s.tables_changeComponent name _).1
  globalVariables_eq := (s.tables_changeComponent name _).2.1
  localVariables_eq := (s.tables_changeComponent name _).2.2.1
  overridesOf_eq key := overridesOf_eq_of_bare (s.bare_changeComponent name key _)
  kinds_eq scope := (s.keys_componentsAt_changeComponent name _ scope "").1
  componentNames_eq scope other := (s.keys_componentsAt_changeComponent name _ scope other).2
  component_eq scope other name' := (s.componentAt?_changeComponent name kind _ scope other name').1
  own_component scope other name' c hown hc := by
    refine ⟨c.attributes.insert attr cell, ?_, sameBut_insert ..⟩
    rw [(s.componentAt?_changeComponent name kind _ scope other name').2 hown, hc]
    rfl
  triggerKeys_eq _ := (s.tables_changeComponent name _).2.2.2
  trigger_eq key _ := s.bare_changeComponent name key _
  own_trigger _ _ h := by cases h

theorem overridesOf_changeTrigger (s : Store) (key : String) {f : Trigger → Trigger}
    (hf : ∀ t, (f t).overrides = t.overrides) (other : String) :
    (s.changeTrigger key f).overridesOf other = s.overridesOf other := by
  rw [overridesOf, trigger?_changeTrigger]
  split
  · next h =>
      subst h
      rw [Option.map_some, Option.getD_some, hf, triggerOrFresh, overridesOf]
      cases s.trigger? other <;> rfl
  · rfl

theorem differsAt_changeTrigger (s : Store) (key kind attr : String) (cell : Cell) :
    DiffersAt (.trigger key kind) attr s (s.changeTrigger key (·.setCell attr cell)) where
  names_eq := rfl
  globalVariables_eq := rfl
  localVariables_eq := rfl
  overridesOf_eq := s.overridesOf_changeTrigger key fun _ => rfl
  kinds_eq scope := by
    rw [s.componentsAt_changeTrigger_of_keep key (f := (·.setCell attr cell)) fun _ => rfl]
  componentNames_eq scope other := by
    rw [s.componentsAt_changeTrigger_of_keep key (f := (·.setCell attr cell)) fun _ => rfl]
  component_eq scope other name _ :=
    s.componentAt?_changeTrigger_of_keep key other name (f := (·.setCell attr cell)) (fun _ => rfl) scope
  own_component scope other name c hown := by
    obtain ⟨_, _, howner, -⟩ := hown
    cases howner
  triggerKeys_eq hother := absurd rfl (hother key kind)
  trigger_eq other hother := by
    rw [trigger?_changeTrigger, if_neg]
    rintro rfl
    exact hother kind rfl
  own_trigger other _ howner := by
    obtain ⟨rfl, -⟩ := Owner.trigger.inj howner
    refine ⟨Table.keys_insert .., (s.triggerCells key).insert attr cell, ?_, sameBut_insert ..⟩
    rw [trigger?_changeTrigger, if_pos rfl, ← s.attributes_triggerOrFresh key ""]
    rfl

theorem differsAt_setCell (s : Store) (owner : Owner) (attr : String) (cell : Cell) :
    DiffersAt owner attr s (s.setCell owner attr cell) := by
  cases owner with
  | component name kind => exact s.differsAt_changeComponent name kind attr cell
  | trigger key kind => exact s.differsAt_changeTrigger key kind attr cell

theorem HasOwner.setCell (h : s.HasOwner owner) (cell : Cell) :
    (s.setCell owner attr cell).HasOwner owner := by
  rintro name kind rfl
  obtain ⟨c, hc⟩ := h name kind rfl
  exact ⟨c.setCell attr cell, by rw [Store.setCell, component?_changeComponent, hc]; rfl⟩

end Store

theorem Attribute.eq_given_of_ofParts {value modulation : Datum} {a : Attribute}
    (h : ofParts value modulation = .ok a) :
    value = Value.given a.value ∧ modulation = ComponentRef.given a.modulation := by
  unfold ofParts at h
  split at h
  all_goals cases h
  all_goals exact ⟨rfl, rfl⟩

namespace Cell

theorem setValue_ofParts (value modulation : Datum) (v : Option Value) :
    setValue (Attribute.ofParts value modulation) (Value.given v) =
      .ok (Attribute.ofParts (Value.given v) modulation) := by
  cases hparts : Attribute.ofParts value modulation with
  | ok a =>
      obtain ⟨-, rfl⟩ := Attribute.eq_given_of_ofParts hparts
      rw [Store.setValue_ok]
      exact congrArg Except.ok (Attribute.ofParts_given (a.withValue v)).symm
  | error e =>
      obtain rfl := Attribute.ofParts_eq_error hparts
      simp only [setValue, Value.ofDatum_given]
      rfl

theorem setModulation_ofParts (value modulation : Datum) (ref : Option ComponentRef) :
    setModulation (Attribute.ofParts value modulation) ref =
      .ok (Attribute.ofParts value (ComponentRef.given ref)) := by
  cases hparts : Attribute.ofParts value modulation with
  | ok a =>
      obtain ⟨rfl, -⟩ := Attribute.eq_given_of_ofParts hparts
      exact congrArg Except.ok (Attribute.ofParts_given (a.withModulation ref)).symm
  | error e =>
      obtain rfl := Attribute.ofParts_eq_error hparts
      rfl

end Cell

namespace Store

variable {s : Store} {owner : Owner} {attr : String} {value modulation : Datum}

def update (s : Store) (owner : Owner) (attr : String) (f : Cell → Except DatumError Cell) : Outcome Bool :=
  match owner with
  | .component name _ => s.updateComponent name attr f
  | .trigger key _ => (s.updateTrigger key attr f).accepted

theorem update_eq_done {cell : Cell} {f : Cell → Except DatumError Cell} (h : s.HasOwner owner)
    (hf : f (Cell.ofOption (s.cell? owner attr)) = .ok cell) :
    s.update owner attr f = .done (s.setCell owner attr cell) true := by
  cases owner with
  | component name kind =>
      obtain ⟨c, hc⟩ := h name kind rfl
      rw [cell?, componentCell?, hc, Option.bind_some] at hf
      simp only [update, updateComponent, hc, hf, setCell]
  | trigger key kind =>
      rw [cell?, triggerCell?, ← s.attributes_triggerOrFresh key ""] at hf
      simp only [update, updateTrigger, hf, setCell]
      rfl

theorem run_valueOperation (h : s.HasOwner owner)
    (hcell : Cell.ofOption (s.cell? owner attr) = Attribute.ofParts value modulation) (v : Option Value) :
    (owner.valueOperation attr v).run s =
      .done (s.setCell owner attr (Attribute.ofParts (Value.given v) modulation)) true := by
  have hrun : (owner.valueOperation attr v).run s = s.update owner attr (Cell.setValue · (Value.given v)) := by
    cases owner <;> rfl
  rw [hrun, update_eq_done h]
  rw [hcell, Cell.setValue_ofParts]

theorem run_modulationOperation (h : s.HasOwner owner)
    (hcell : Cell.ofOption (s.cell? owner attr) = Attribute.ofParts value modulation)
    (ref : Option ComponentRef) :
    (owner.modulationOperation attr ref).run s =
      .done (s.setCell owner attr (Attribute.ofParts value (ComponentRef.given ref))) true := by
  have hrun : (owner.modulationOperation attr ref).run s = s.update owner attr (Cell.setModulation · ref) := by
    cases owner <;> rfl
  rw [hrun, update_eq_done h]
  rw [hcell, Cell.setModulation_ofParts]

theorem write_eq_run (s : Store) (owner : Owner) (attr : String) (a : Attribute) :
    s.write owner attr a = ((owner.modulationOperation attr a.modulation).run
      ((owner.valueOperation attr a.value).run s).store).store := by
  cases owner <;> rfl

theorem run_both (h : s.HasOwner owner)
    (hcell : Cell.ofOption (s.cell? owner attr) = Attribute.ofParts value modulation) (a : Attribute) :
    (owner.modulationOperation attr a.modulation).run ((owner.valueOperation attr a.value).run s).store =
        .done (s.setCell owner attr (.ok a)) true ∧
      (owner.valueOperation attr a.value).run ((owner.modulationOperation attr a.modulation).run s).store =
        .done (s.setCell owner attr (.ok a)) true := by
  rw [run_valueOperation h hcell, run_modulationOperation h hcell, Outcome.store_done, Outcome.store_done]
  constructor
  · rw [run_modulationOperation (h.setCell _) (by rw [cell?_setCell h]; rfl), setCell_setCell,
      Attribute.ofParts_given]
  · rw [run_valueOperation (h.setCell _) (by rw [cell?_setCell h]; rfl), setCell_setCell,
      Attribute.ofParts_given]

theorem Plain.componentAt? (hs : s.Plain) {scope : Option String} {kind name : String} {c : Component}
    (hc : s.componentAt? scope kind name = some c) : c.Plain := by
  have htables : (s.componentsAt scope).Plain := by
    cases scope with
    | none => exact hs.components
    | some key =>
        rw [componentsAt]
        cases htrigger : s.trigger? key with
        | none => exact Table.all_empty
        | some t => exact (hs.triggers htrigger).components
  obtain ⟨table, htable, hc⟩ := Option.bind_eq_some_iff.1 hc
  exact htables htable hc

theorem Plain.exists_parts (hs : s.Plain) (owner : Owner) (attr : String) :
    ∃ value modulation, Cell.ofOption (s.cell? owner attr) = Attribute.ofParts value modulation := by
  cases hcell : s.cell? owner attr with
  | none => exact ⟨.null, .null, rfl⟩
  | some cell =>
      cases owner with
      | component name kind =>
          obtain ⟨c, hc, hcell⟩ := Option.bind_eq_some_iff.1 hcell
          rw [component?_eq, Option.bind_eq_some_iff] at hc
          obtain ⟨info, -, hc⟩ := hc
          exact (hs.componentAt? hc).cells hcell
      | trigger key kind =>
          rw [cell?, triggerCell?, ← s.attributes_triggerOrFresh key ""] at hcell
          exact (hs.triggerOrFresh key "").cells hcell

/-- After any operations, an attribute of a component that is there, or of any trigger, can be written and is
read as it was written. The operation on its value keeps its modulation and the operation on its modulation
keeps its value, so that they can be exchanged; and nothing but the attribute is changed. -/
theorem attributes_independent (ops : List Operation) {owner : Owner} (attr : String) (a : Attribute)
    (howner : (empty.runAll ops).HasOwner owner) :
    let s := empty.runAll ops
    let valued := (owner.valueOperation attr a.value).run s
    let modulated := (owner.modulationOperation attr a.modulation).run s
    let written := s.write owner attr a
    written.read owner attr = a ∧
    (∃ value modulation, Cell.ofOption (s.cell? owner attr) = Attribute.ofParts value modulation ∧
      valued.store.cell? owner attr = some (Attribute.ofParts (Value.given a.value) modulation) ∧
      modulated.store.cell? owner attr = some (Attribute.ofParts value (ComponentRef.given a.modulation))) ∧
    valued.answer = .ok true ∧ modulated.answer = .ok true ∧
    (owner.modulationOperation attr a.modulation).run valued.store = .done written true ∧
    (owner.valueOperation attr a.value).run modulated.store = .done written true ∧
    DiffersAt owner attr s valued.store ∧ DiffersAt owner attr s modulated.store ∧
    DiffersAt owner attr s written := by
  intro s valued modulated written
  obtain ⟨value, modulation, hcell⟩ := (plain_empty.runAll ops).exists_parts owner attr
  have hvalued : valued =
      .done (s.setCell owner attr (Attribute.ofParts (Value.given a.value) modulation)) true :=
    run_valueOperation howner hcell a.value
  have hmodulated : modulated =
      .done (s.setCell owner attr (Attribute.ofParts value (ComponentRef.given a.modulation))) true :=
    run_modulationOperation howner hcell a.modulation
  obtain ⟨hfirst, hsecond⟩ := run_both howner hcell a
  have hwritten : written = s.setCell owner attr (.ok a) := by
    rw [← Outcome.store_done (s.setCell owner attr (.ok a)) true, ← hfirst]
    exact s.write_eq_run owner attr a
  rw [← hwritten] at hfirst hsecond
  refine ⟨?_, ⟨value, modulation, hcell, ?_, ?_⟩, ?_, ?_, hfirst, hsecond, ?_, ?_, ?_⟩
  · rw [hwritten]
    exact read_eq_of_cell? (cell?_setCell howner _)
  · rw [hvalued]
    exact cell?_setCell howner _
  · rw [hmodulated]
    exact cell?_setCell howner _
  · rw [hvalued]
    rfl
  · rw [hmodulated]
    rfl
  · rw [hvalued]
    exact s.differsAt_setCell owner attr _
  · rw [hmodulated]
    exact s.differsAt_setCell owner attr _
  · rw [hwritten]
    exact s.differsAt_setCell owner attr _

def swayed : List Operation :=
  [.addVariable "depth" (.number (.int 3)) (.text "global") none .null .null none,
    .addComponent "lfo" "slow" (.text "global") none [],
    .addComponent "lfo" "wobble" (.text "trigger") (some "note_c4")
      [("rate", .number (.int 5)), ("shape", .text "sine")],
    .setOverride "depth" (.number (.int 9)) "note_c4"]

def swayedRate : Attribute := ⟨some (.literal (.number (.int 7))), some ⟨.text "slow", .text "lfo"⟩⟩

theorem attributes_independent_swayed :
    (empty.runAll swayed).HasOwner (.component "wobble" "lfo") ∧
      ((empty.runAll swayed).write (.component "wobble" "lfo") "rate" swayedRate).read
        (.component "wobble" "lfo") "rate" = swayedRate ∧
      ((empty.runAll swayed).write (.component "wobble" "lfo") "rate" swayedRate).names =
        (empty.runAll swayed).names := by
  have howner : (empty.runAll swayed).HasOwner (.component "wobble" "lfo") := by
    intro name kind heq
    cases heq
    exact ⟨_, rfl⟩
  obtain ⟨hread, -, -, -, -, -, -, -, hdiffers⟩ := attributes_independent swayed "rate" swayedRate howner
  exact ⟨howner, hread, hdiffers.names_eq⟩

end Store

end Instrument
