import Instrument.Proofs.Findings
import Instrument.Proofs.Recorded

namespace Instrument

namespace Table

variable {α β : Type}

theorem map_insert_of_eq {f : String → α → β} {t : Table α} {key : String} {a b : α}
    (h : t.get? key = some b) (hf : f key a = f key b) : (t.insert key a).map f = t.map f := by
  rw [map_insert, hf]
  apply insert_self
  rw [get?_map, h, Option.map_some]

theorem map_modify_of_eq {f : String → α → β} {t : Table α} {key : String} {g : α → α}
    (hf : ∀ a, t.get? key = some a → f key (g a) = f key a) : (t.modify key g).map f = t.map f := by
  rw [modify]
  cases h : t.get? key with
  | none => rfl
  | some a => exact map_insert_of_eq h (hf a h)

end Table

def Table.blanked (cells : Table Cell) : Table Cell := cells.map fun _ _ => .ok .empty

def Component.outline (x : Component) : Component := { x with attributes := x.attributes.blanked }

def ComponentTables.outline (tables : ComponentTables) : ComponentTables :=
  tables.map fun _ table => table.map fun _ x => x.outline

def Trigger.outline (x : Trigger) : Trigger :=
  { x with attributes := x.attributes.blanked, components := x.components.outline }

/-- A store without the values and the modulations of its attributes. The attributes themselves are
there, in their order, and so is everything else. -/
def Store.outline (s : Store) : Store :=
  { s with components := s.components.outline, triggers := s.triggers.map fun _ x => x.outline }

theorem Component.outline_setCell {x : Component} {attr : String} {cell old : Cell}
    (h : x.cell? attr = some old) : (x.setCell attr cell).outline = x.outline := by
  have hsame : (x.attributes.insert attr cell).blanked = x.attributes.blanked :=
    Table.map_insert_of_eq h rfl
  rw [outline, setCell, hsame, outline]

theorem Trigger.outline_setCell {x : Trigger} {attr : String} {cell old : Cell}
    (h : x.attributes.get? attr = some old) : (x.setCell attr cell).outline = x.outline := by
  have hsame : (x.attributes.insert attr cell).blanked = x.attributes.blanked :=
    Table.map_insert_of_eq h rfl
  rw [outline, setCell, hsame, outline]

theorem ComponentTables.outline_change {tables : ComponentTables} {kind name : String}
    {f : Component → Component}
    (h : ∀ x, find? tables kind name = some x → (f x).outline = x.outline) :
    outline (change tables kind name f) = outline tables := by
  refine Table.map_modify_of_eq fun table htable => Table.map_modify_of_eq fun x hx => h x ?_
  rw [find?, htable, Option.bind_some, hx]

namespace Store

variable {s : Store} {owner : Owner} {attr : String}

theorem outline_changeTables {info : NameInfo} {f : ComponentTables → ComponentTables}
    (h : ∀ tables, s.tablesFor info = some tables → (f tables).outline = tables.outline) :
    (s.changeTables info f).outline = s.outline := by
  rw [changeTables]
  cases hscope : info.scope with
  | global =>
      have hsame : (f s.components).outline = s.components.outline :=
        h s.components (by rw [tablesFor, hscope])
      simp only [outline, hsame]
  | trigger =>
      have hsame : (s.triggers.modify (info.key.getD "") fun x =>
          { x with components := f x.components }).map (fun _ x => x.outline) =
            s.triggers.map fun _ x => x.outline := by
        refine Table.map_modify_of_eq fun x hx => ?_
        have hx' : (f x.components).outline = x.components.outline :=
          h x.components (by rw [tablesFor, hscope]; simp [trigger?, hx])
        simp only [Trigger.outline, hx']
      simp only [outline, hsame]

theorem outline_setCell (hs : s.Coherent) {old : Cell} (h : s.HasCell owner attr old) (cell : Cell) :
    (s.setCell owner attr cell).outline = s.outline := by
  cases owner with
  | component name kind =>
      obtain ⟨scope, x, hx, hcell⟩ := h
      obtain ⟨info, hinfo, rfl, rfl⟩ := hs.componentInfo?_eq hx
      rw [setCell, changeComponent, hinfo]
      refine outline_changeTables fun tables htables => ComponentTables.outline_change fun y hy => ?_
      have hfound := s.tablesFor_bind info.kind name info
      rw [htables, Option.bind_some, hy, hx] at hfound
      rw [Option.some.inj hfound]
      exact Component.outline_setCell hcell
  | trigger key kind =>
      obtain ⟨x, hx, -, hcell⟩ := h
      have hsame : (s.triggers.insert key (x.setCell attr cell)).map (fun _ x => x.outline) =
          s.triggers.map fun _ x => x.outline :=
        Table.map_insert_of_eq hx (Trigger.outline_setCell hcell)
      rw [setCell, changeTrigger, triggerOrFresh, hx, Option.getD_some]
      simp only [outline, hsame]

end Store

namespace Document

open Text

variable {c : Catalog} {owner : Owner} {attr word : String} {schema : AttributeSchema}
  {current : Attribute} {info : Option NameInfo}

namespace Reader

variable {strict : Bool} {r now : Reader} {target : Owner × String} {a : Attribute} {s : Store}

end Reader

end Document

end Instrument
