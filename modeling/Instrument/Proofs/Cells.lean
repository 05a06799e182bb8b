import Instrument.Document.Owner
import Instrument.Proofs.Registry

namespace Instrument

theorem Value.ofDatum_given (v : Option Value) : Value.ofDatum (Value.given v) = .ok v := by
  cases v <;> rfl

namespace ComponentTables

theorem change_change (tables : ComponentTables) (kind name : String) (f g : Component → Component) :
    change (change tables kind name f) kind name g = change tables kind name fun c => g (f c) := by
  simp only [change, Table.modify_modify]

end ComponentTables

theorem Component.setCell_setCell (c : Component) (attr : String) (first second : Cell) :
    (c.setCell attr first).setCell attr second = c.setCell attr second := by
  simp only [setCell, Table.insert_insert]

theorem Trigger.setCell_setCell (t : Trigger) (attr : String) (first second : Cell) :
    (t.setCell attr first).setCell attr second = t.setCell attr second := by
  simp only [setCell, Table.insert_insert]

def Owner.bare : Owner → Owner
  | component name _ => .component name ""
  | trigger key _ => .trigger key ""

namespace Store

variable {s : Store} {owner other : Owner} {attr attr' : String} {cell cell' : Cell}

def cell? (s : Store) (owner : Owner) (attr : String) : Option Cell :=
  match owner with
  | .component name _ => s.componentCell? name attr
  | .trigger key _ => s.triggerCell? key attr

theorem read_eq (s : Store) (owner : Owner) (attr : String) :
    s.read owner attr = (Cell.ofOption (s.cell? owner attr)).attribute := by
  cases owner <;> rfl

theorem read_eq_of_cell? {a : Attribute} (h : s.cell? owner attr = some (.ok a)) :
    s.read owner attr = a := by
  rw [read_eq, h]
  rfl

theorem cell?_of_bare (h : other.bare = owner.bare) (s : Store) (attr : String) :
    s.cell? other attr = s.cell? owner attr := by
  have hbare (who : Owner) : s.cell? who.bare attr = s.cell? who attr := by cases who <;> rfl
  rw [← hbare, h, hbare]

def setCell (s : Store) (owner : Owner) (attr : String) (cell : Cell) : Store :=
  match owner with
  | .component name _ => s.changeComponent name (·.setCell attr cell)
  | .trigger key _ => s.changeTrigger key (·.setCell attr cell)

/-- An owner is there, and is of the kind that is said of it. -/
def Knows (s : Store) : Owner → Prop
  | .component name kind => ∃ scope c, s.componentAt? scope kind name = some c
  | .trigger key kind => ∃ t, s.trigger? key = some t ∧ t.kind = kind

def HasCell (s : Store) (owner : Owner) (attr : String) (cell : Cell) : Prop :=
  match owner with
  | .component name kind =>
    ∃ scope c, s.componentAt? scope kind name = some c ∧ c.cell? attr = some cell
  | .trigger key kind =>
    ∃ t, s.trigger? key = some t ∧ t.kind = kind ∧ t.attributes.get? attr = some cell

def Readable (s : Store) : Prop :=
  ∀ owner attr cell, s.HasCell owner attr cell → ∃ a, cell = .ok a

theorem changeTables_changeTables (s : Store) (info : NameInfo) (f g : ComponentTables → ComponentTables) :
    (s.changeTables info f).changeTables info g = s.changeTables info fun t => g (f t) := by
  simp only [changeTables]
  cases info.scope with
  | global => rfl
  | trigger => simp only [Table.modify_modify]

theorem componentInfo?_changeComponent (s : Store) (name other : String) (f : Component → Component) :
    (s.changeComponent name f).componentInfo? other = s.componentInfo? other := by
  rw [changeComponent]
  cases s.componentInfo? name with
  | none => rfl
  | some info => simp [componentInfo?]

theorem changeComponent_changeComponent (s : Store) (name : String) (f g : Component → Component) :
    (s.changeComponent name f).changeComponent name g = s.changeComponent name fun c => g (f c) := by
  rw [changeComponent, componentInfo?_changeComponent, changeComponent, changeComponent]
  cases s.componentInfo? name with
  | none => rfl
  | some info => simp only [changeTables_changeTables, ComponentTables.change_change]

theorem component?_changeComponent (s : Store) (name : String) (f : Component → Component) :
    (s.changeComponent name f).component? name = (s.component? name).map f := by
  rw [component?_eq, componentInfo?_changeComponent, component?_eq, changeComponent]
  cases s.componentInfo? name with
  | none => rfl
  | some info => simp [componentAt?_change]

theorem Coherent.componentInfo?_eq (hs : s.Coherent) {scope : Option String} {kind name : String}
    {c : Component} (hc : s.componentAt? scope kind name = some c) :
    ∃ info, s.componentInfo? name = some info ∧ info.home = scope ∧ info.kind = kind := by
  obtain ⟨info, hinfo, hplace⟩ := (hs.holds_iff name (.componentTable scope kind)).1 ⟨c, hc⟩
  rw [NameInfo.place] at hplace
  split at hplace
  · cases hplace
  · next hkind =>
      injection hplace with hhome hkind'
      exact ⟨info, (s.componentInfo?_eq_some name).2 ⟨hinfo, by simpa using hkind⟩, hhome, hkind'⟩

theorem Coherent.component?_eq_some (hs : s.Coherent) {scope : Option String} {kind name : String}
    {c : Component} (hc : s.componentAt? scope kind name = some c) : s.component? name = some c := by
  obtain ⟨info, hinfo, rfl, rfl⟩ := hs.componentInfo?_eq hc
  rw [component?_eq, hinfo, Option.bind_some, hc]

theorem Coherent.componentAt?_changeComponent (hs : s.Coherent) {scope : Option String}
    {kind name : String} {c : Component} (hc : s.componentAt? scope kind name = some c)
    (f : Component → Component) (scope' : Option String) (kind' name' : String) :
    (s.changeComponent name f).componentAt? scope' kind' name' =
      if scope' = scope ∧ kind' = kind ∧ name' = name then some (f c)
      else s.componentAt? scope' kind' name' := by
  obtain ⟨info, hinfo, rfl, rfl⟩ := hs.componentInfo?_eq hc
  rw [changeComponent, hinfo]
  simp only [componentAt?_change]
  split
  · next h =>
      obtain ⟨rfl, rfl, rfl⟩ := h
      rw [hc, Option.map_some]
  · rfl

theorem trigger?_changeComponent (s : Store) (name key : String) (f : Component → Component) :
    ∃ g : Trigger → Trigger,
      (∀ t, (g t).key = t.key ∧ (g t).kind = t.kind ∧ (g t).attributes = t.attributes ∧
        (g t).overrides = t.overrides) ∧
      (s.changeComponent name f).trigger? key = (s.trigger? key).map g := by
  have hkeep : ∃ g : Trigger → Trigger,
      (∀ t, (g t).key = t.key ∧ (g t).kind = t.kind ∧ (g t).attributes = t.attributes ∧
        (g t).overrides = t.overrides) ∧ s.trigger? key = (s.trigger? key).map g :=
    ⟨id, fun _ => ⟨rfl, rfl, rfl, rfl⟩, by simp⟩
  rw [changeComponent]
  cases s.componentInfo? name with
  | none => exact hkeep
  | some info =>
      simp only [changeTables]
      cases info.scope with
      | global => exact hkeep
      | trigger =>
          simp only [trigger?, Table.get?_modify]
          split
          · next h =>
              rw [h]
              exact ⟨fun t => { t with components := ComponentTables.change t.components info.kind name f },
                fun _ => ⟨rfl, rfl, rfl, rfl⟩, rfl⟩
          · exact hkeep

theorem changeTrigger_changeTrigger (s : Store) (key : String) (f g : Trigger → Trigger) :
    (s.changeTrigger key f).changeTrigger key g = s.changeTrigger key fun t => g (f t) := by
  have hfresh : (s.changeTrigger key f).triggerOrFresh key "" = f (s.triggerOrFresh key "") := by
    rw [triggerOrFresh, trigger?_changeTrigger, if_pos rfl, Option.getD_some]
  rw [changeTrigger, hfresh]
  simp only [changeTrigger, Table.insert_insert]

theorem setCell_setCell (s : Store) (owner : Owner) (attr : String) (first second : Cell) :
    (s.setCell owner attr first).setCell owner attr second = s.setCell owner attr second := by
  cases owner with
  | component name kind =>
      simp only [setCell, changeComponent_changeComponent, Component.setCell_setCell]
  | trigger key kind => simp only [setCell, changeTrigger_changeTrigger, Trigger.setCell_setCell]

theorem updateComponent_eq {name : String} {c : Component} {cell : Cell}
    {f : Cell → Except DatumError Cell} (hc : s.component? name = some c)
    (hf : f (Cell.ofOption (c.cell? attr)) = .ok cell) :
    (s.updateComponent name attr f).store = s.changeComponent name (·.setCell attr cell) := by
  simp only [updateComponent, hc, hf, Outcome.store_done]

theorem attributes_triggerOrFresh (s : Store) (key kind : String) :
    (s.triggerOrFresh key kind).attributes = s.triggerCells key := by
  rw [triggerOrFresh, triggerCells]
  cases s.trigger? key <;> rfl

theorem updateTrigger_eq {key : String} {cell : Cell} {f : Cell → Except DatumError Cell}
    (hf : f (Cell.ofOption (s.triggerCell? key attr)) = .ok cell) :
    (s.updateTrigger key attr f).store = s.changeTrigger key (·.setCell attr cell) := by
  rw [triggerCell?, ← s.attributes_triggerOrFresh key ""] at hf
  simp only [updateTrigger, hf, Outcome.store_done]

theorem setValue_ok (a : Attribute) (v : Option Value) :
    Cell.setValue (.ok a) (Value.given v) = .ok (.ok (a.withValue v)) := by
  simp only [Cell.setValue, Value.ofDatum_given]
  rfl

theorem setModulation_ok (old a : Attribute) :
    Cell.setModulation (.ok (old.withValue a.value)) a.modulation = .ok (.ok a) := rfl

theorem write_eq_setCell {old : Attribute} (hold : Cell.ofOption (s.cell? owner attr) = .ok old)
    (hknown : ∀ name kind, owner = .component name kind → ∃ c, s.component? name = some c)
    (a : Attribute) : s.write owner attr a = s.setCell owner attr (.ok a) := by
  have hvalue : Cell.setValue (Cell.ofOption (s.cell? owner attr)) (Value.given a.value) =
      .ok (.ok (old.withValue a.value)) := by
    rw [hold, setValue_ok]
  have hmodulation := setModulation_ok old a
  cases owner with
  | component name kind =>
      obtain ⟨c, hc⟩ := hknown name kind rfl
      simp only [cell?, componentCell?, hc, Option.bind_some] at hvalue
      have hfirst : (s.updateComponentAttribute name attr (Value.given a.value)).store =
          s.changeComponent name (·.setCell attr (.ok (old.withValue a.value))) :=
        updateComponent_eq hc hvalue
      have hc' := s.component?_changeComponent name (·.setCell attr (.ok (old.withValue a.value)))
      rw [hc, Option.map_some] at hc'
      have hcell : (c.setCell attr (.ok (old.withValue a.value))).cell? attr =
          some (.ok (old.withValue a.value)) := Table.get?_insert_self ..
      have hsecond := updateComponent_eq (f := (Cell.setModulation · a.modulation)) hc'
        (by rw [hcell]; exact hmodulation)
      simp only [write, hfirst]
      rw [updateComponentModulation, hsecond]
      exact s.setCell_setCell (.component name kind) attr _ _
  | trigger key kind =>
      have hfirst : (s.setTriggerAttribute key attr (Value.given a.value)).store =
          s.changeTrigger key (·.setCell attr (.ok (old.withValue a.value))) :=
        updateTrigger_eq hvalue
      have hcell : (s.changeTrigger key (·.setCell attr (.ok (old.withValue a.value)))).triggerCell?
          key attr = some (.ok (old.withValue a.value)) := by
        rw [triggerCell?, triggerCells, trigger?_changeTrigger, if_pos rfl]
        exact Table.get?_insert_self ..
      have hsecond := updateTrigger_eq (f := (Cell.setModulation · a.modulation))
        (by rw [hcell]; exact hmodulation)
      simp only [write, hfirst]
      rw [setTriggerModulation, hsecond]
      exact s.setCell_setCell (.trigger key kind) attr _ _

theorem Knows.component?_eq (hs : s.Coherent) (hknown : s.Knows owner) (name kind : String)
    (h : owner = .component name kind) : ∃ c, s.component? name = some c := by
  subst h
  obtain ⟨scope, c, hc⟩ := hknown
  exact ⟨c, hs.component?_eq_some hc⟩

theorem HasCell.knows {cell : Cell} (h : s.HasCell owner attr cell) : s.Knows owner := by
  cases owner with
  | component name kind =>
      obtain ⟨scope, c, hc, -⟩ := h
      exact ⟨scope, c, hc⟩
  | trigger key kind =>
      obtain ⟨t, ht, hkind, -⟩ := h
      exact ⟨t, ht, hkind⟩

theorem Coherent.cell?_eq_some (hs : s.Coherent) (hknown : s.Knows owner) {cell : Cell} :
    s.cell? owner attr = some cell ↔ s.HasCell owner attr cell := by
  cases owner with
  | component name kind =>
      obtain ⟨scope, c, hc⟩ := hknown
      simp only [cell?, componentCell?, hs.component?_eq_some hc, Option.bind_some, HasCell]
      constructor
      · intro h
        exact ⟨scope, c, hc, h⟩
      · rintro ⟨scope', c', hc', h⟩
        have hsame : c = c' :=
          Option.some.inj ((hs.component?_eq_some hc).symm.trans (hs.component?_eq_some hc'))
        rw [hsame]
        exact h
  | trigger key kind =>
      obtain ⟨t, ht, hkind⟩ := hknown
      simp [cell?, triggerCell?, triggerCells, ht, HasCell, hkind]

theorem Readable.ofOption_cell? (hread : s.Readable) (hs : s.Coherent) (hknown : s.Knows owner) :
    Cell.ofOption (s.cell? owner attr) = .ok (s.read owner attr) := by
  rw [read_eq]
  cases hcell : s.cell? owner attr with
  | none => rfl
  | some cell =>
      obtain ⟨a, rfl⟩ := hread owner attr cell ((hs.cell?_eq_some hknown).1 hcell)
      rfl

theorem Readable.hasCell_or_empty (hread : s.Readable) (hs : s.Coherent) (hknown : s.Knows owner) :
    s.HasCell owner attr (.ok (s.read owner attr)) ∨ s.read owner attr = .empty := by
  cases hcell : s.cell? owner attr with
  | none =>
      right
      rw [read_eq, hcell]
      rfl
  | some cell =>
      left
      have hthere := (hs.cell?_eq_some hknown).1 hcell
      obtain ⟨a, rfl⟩ := hread owner attr cell hthere
      rwa [read_eq_of_cell? hcell]

theorem Readable.write_eq (hread : s.Readable) (hs : s.Coherent) (hknown : s.Knows owner)
    (a : Attribute) : s.write owner attr a = s.setCell owner attr (.ok a) :=
  write_eq_setCell (hread.ofOption_cell? hs hknown) (hknown.component?_eq hs) a

theorem keeps_write (s : Store) (owner : Owner) (attr : String) (a : Attribute) :
    Keeps s (s.write owner attr a) := by
  cases owner with
  | component name kind =>
      exact (s.keeps_updateComponent name attr _).trans (keeps_updateComponent _ name attr _)
  | trigger key kind =>
      exact (s.keeps_updateTrigger key attr _).trans (keeps_updateTrigger _ key attr _)

theorem keeps_setCell (s : Store) (owner : Owner) (attr : String) (cell : Cell) :
    Keeps s (s.setCell owner attr cell) := by
  cases owner with
  | component name kind => exact s.keeps_changeComponent name fun _ => ⟨rfl, rfl, rfl, rfl⟩
  | trigger key kind => exact s.keeps_changeTrigger key (f := (·.setCell attr cell)) fun _ => rfl

theorem Keeps.componentAt?_some {s t : Store} (h : Keeps s t) {scope : Option String}
    {kind name : String} {c : Component} (hc : s.componentAt? scope kind name = some c) :
    ∃ c', t.componentAt? scope kind name = some c' := by
  obtain ⟨f, -, hf⟩ := h.componentAt?_eq scope kind name
  exact ⟨f c, by rw [hf, hc, Option.map_some]⟩

theorem Coherent.hasCell_iff (hs : s.Coherent) :
    s.HasCell owner attr cell ↔ s.Knows owner ∧ s.cell? owner attr = some cell := by
  constructor
  · intro h
    exact ⟨h.knows, (hs.cell?_eq_some h.knows).2 h⟩
  · rintro ⟨hknown, h⟩
    exact (hs.cell?_eq_some hknown).1 h

theorem Knows.eq_of_bare (hs : s.Coherent) (h : s.Knows other) (h' : s.Knows owner)
    (hbare : other.bare = owner.bare) : other = owner := by
  cases other with
  | component name kind =>
      cases owner with
      | component name' kind' =>
          obtain ⟨scope, x, hx⟩ := h
          obtain ⟨scope', y, hy⟩ := h'
          cases hbare
          obtain ⟨info, hinfo, -, rfl⟩ := hs.componentInfo?_eq hx
          obtain ⟨info', hinfo', -, rfl⟩ := hs.componentInfo?_eq hy
          rw [Option.some.inj (hinfo.symm.trans hinfo')]
      | trigger key kind' => cases hbare
  | trigger key kind =>
      cases owner with
      | component name kind' => cases hbare
      | trigger key' kind' =>
          obtain ⟨x, hx, rfl⟩ := h
          obtain ⟨y, hy, rfl⟩ := h'
          cases hbare
          rw [Option.some.inj (hx.symm.trans hy)]

theorem component?_changeComponent_of_ne {name name' : String} (hne : name' ≠ name) (s : Store)
    (f : Component → Component) : (s.changeComponent name f).component? name' = s.component? name' := by
  rw [component?_eq, componentInfo?_changeComponent, component?_eq]
  congr
  funext info
  rw [changeComponent]
  cases s.componentInfo? name with
  | none => rfl
  | some info' =>
      simp only
      rw [componentAt?_change, if_neg fun heq => hne heq.2.2]

theorem component?_changeTrigger (s : Store) (key name : String) {f : Trigger → Trigger}
    (hf : ∀ x, (f x).components = x.components) :
    (s.changeTrigger key f).component? name = s.component? name := by
  have hinfo : (s.changeTrigger key f).componentInfo? name = s.componentInfo? name := rfl
  rw [component?_eq, hinfo, component?_eq]
  congr
  funext info
  exact s.componentAt?_changeTrigger_of_keep key info.kind name hf info.home

theorem triggerCell?_changeTrigger (s : Store) (key : String) (f : Trigger → Trigger)
    (other attr : String) :
    (s.changeTrigger key f).triggerCell? other attr =
      if other = key then (f (s.triggerOrFresh key "")).attributes.get? attr
      else s.triggerCell? other attr := by
  rw [triggerCell?, triggerCells, trigger?_changeTrigger]
  by_cases h : other = key
  · rw [if_pos h, if_pos h]
  · rw [if_neg h, if_neg h]
    rfl

theorem cell?_setCell (h : ∀ name kind, owner = .component name kind → ∃ c, s.component? name = some c)
    (cell : Cell) : (s.setCell owner attr cell).cell? owner attr = some cell := by
  cases owner with
  | component name kind =>
      obtain ⟨c, hc⟩ := h name kind rfl
      rw [cell?, setCell, componentCell?, component?_changeComponent, hc]
      exact Table.get?_insert_self ..
  | trigger key kind =>
      rw [cell?, setCell, triggerCell?_changeTrigger, if_pos rfl]
      exact Table.get?_insert_self ..

theorem cell?_setCell_of_ne (hne : ¬(other.bare = owner.bare ∧ attr' = attr)) (s : Store) :
    (s.setCell owner attr cell).cell? other attr' = s.cell? other attr' := by
  cases owner with
  | component name kind =>
      cases other with
      | component name' kind' =>
          simp only [setCell, cell?, componentCell?]
          by_cases hname : name' = name
          · subst hname
            have hattr : attr' ≠ attr := fun hattr => hne ⟨rfl, hattr⟩
            rw [component?_changeComponent]
            cases s.component? name' with
            | none => rfl
            | some x => exact Table.get?_insert_of_ne hattr ..
          · rw [component?_changeComponent_of_ne hname]
      | trigger key' kind' =>
          obtain ⟨g, hg, htrigger⟩ := s.trigger?_changeComponent name key' (·.setCell attr cell)
          rw [setCell, cell?, triggerCell?, triggerCells, htrigger, cell?, triggerCell?, triggerCells]
          cases s.trigger? key' with
          | none => rfl
          | some x => simp only [Option.map_some, (hg x).2.2.1]
  | trigger key kind =>
      cases other with
      | component name' kind' =>
          have hsame := s.component?_changeTrigger key name' (f := (·.setCell attr cell)) fun _ => rfl
          rw [setCell, cell?, componentCell?, hsame]
          rfl
      | trigger key' kind' =>
          rw [setCell, cell?, triggerCell?_changeTrigger]
          split
          · next heq =>
              subst heq
              have hattr : attr' ≠ attr := fun hattr => hne ⟨rfl, hattr⟩
              rw [Trigger.setCell, Table.get?_insert_of_ne hattr, attributes_triggerOrFresh]
              rfl
          · rfl

theorem knows_setCell_iff (hknown : s.Knows owner) :
    (s.setCell owner attr cell).Knows other ↔ s.Knows other := by
  cases other with
  | component name kind =>
      refine exists_congr fun scope => ?_
      obtain ⟨f, -, hf⟩ := (s.keeps_setCell owner attr cell).componentAt?_eq scope kind name
      simp only [hf, ← Option.isSome_iff_exists, Option.isSome_map]
  | trigger key kind =>
      cases owner with
      | component name kind' =>
          obtain ⟨g, hg, htrigger⟩ := s.trigger?_changeComponent name key (·.setCell attr cell)
          rw [Knows, Knows, setCell, htrigger]
          constructor
          · rintro ⟨t, ht, hkind⟩
            obtain ⟨x, hx, rfl⟩ := Option.map_eq_some_iff.1 ht
            exact ⟨x, hx, (hg x).2.1.symm.trans hkind⟩
          · rintro ⟨x, hx, hkind⟩
            exact ⟨g x, by rw [hx, Option.map_some], (hg x).2.1.trans hkind⟩
      | trigger key' kind' =>
          obtain ⟨x, hx, -⟩ := hknown
          rw [Knows, Knows, setCell, trigger?_changeTrigger]
          split
          · next heq =>
              subst heq
              simp [triggerOrFresh, hx, Trigger.setCell]
          · rfl

theorem Knows.setCell (hknown : s.Knows owner) (hother : s.Knows other) :
    (s.setCell other attr cell).Knows owner := (knows_setCell_iff hother).2 hknown

theorem hasCell_setCell_iff (hs : s.Coherent) (hknown : s.Knows owner) :
    (s.setCell owner attr cell).HasCell other attr' cell' ↔
      (other = owner ∧ attr' = attr ∧ cell' = cell) ∨
        (¬(other = owner ∧ attr' = attr) ∧ s.HasCell other attr' cell') := by
  have hcoherent := (s.keeps_setCell owner attr cell).coherent hs
  rw [hcoherent.hasCell_iff, hs.hasCell_iff, knows_setCell_iff hknown]
  by_cases heq : other = owner ∧ attr' = attr
  · obtain ⟨rfl, rfl⟩ := heq
    rw [cell?_setCell (hknown.component?_eq hs)]
    simp [hknown, eq_comm]
  · have hkept (hother : s.Knows other) :
        (s.setCell owner attr cell).cell? other attr' = s.cell? other attr' :=
      cell?_setCell_of_ne (fun h => heq ⟨hother.eq_of_bare hs hknown h.1, h.2⟩) s
    constructor
    · rintro ⟨hother, hcell⟩
      exact .inr ⟨heq, hother, (hkept hother).symm.trans hcell⟩
    · rintro (⟨howner, hattr, -⟩ | ⟨-, hother, hcell⟩)
      · exact absurd ⟨howner, hattr⟩ heq
      · exact ⟨hother, (hkept hother).trans hcell⟩

theorem hasCell_setCell (hs : s.Coherent) (hknown : s.Knows owner) (attr : String) (cell : Cell) :
    (s.setCell owner attr cell).HasCell owner attr cell :=
  (hasCell_setCell_iff hs hknown).2 (.inl ⟨rfl, rfl, rfl⟩)

theorem HasCell.setCell_of_ne (hs : s.Coherent) (hknown : s.Knows owner)
    (h : s.HasCell other attr' cell') (hne : ¬(other = owner ∧ attr' = attr)) :
    (s.setCell owner attr cell).HasCell other attr' cell' :=
  (hasCell_setCell_iff hs hknown).2 (.inr ⟨hne, h⟩)

theorem HasCell.of_setCell (hs : s.Coherent) (hknown : s.Knows owner)
    (h : (s.setCell owner attr cell).HasCell other attr' cell') :
    (other = owner ∧ attr' = attr ∧ cell' = cell) ∨
      (¬(other = owner ∧ attr' = attr) ∧ s.HasCell other attr' cell') :=
  (hasCell_setCell_iff hs hknown).1 h

end Store

end Instrument
