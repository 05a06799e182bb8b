import Instrument.Store.Operation

namespace Instrument

def ScopeKind.home (scope : ScopeKind) (key : Option String) : Option String :=
  match scope with
  | .global => none
  | .trigger => some (key.getD "")

def NameInfo.home (info : NameInfo) : Option String := info.scope.home info.key

def Component.home (c : Component) : Option String := c.scope.home c.key

def Variable.home (v : Variable) : Option String := v.scope.home v.key

namespace ComponentTables

variable (tables : ComponentTables) (kind name : String)

@[simp] theorem find?_empty : find? .empty kind name = none := rfl

theorem get?_ofKind : (ofKind tables kind).get? name = find? tables kind name := by
  rw [ofKind, find?]
  cases tables.get? kind <;> rfl

theorem find?_place (c : Component) (k n : String) :
    find? (place tables kind name c) k n =
      if k = kind ∧ n = name then some c else find? tables k n := by
  rw [find?, place, Table.get?_insert]
  by_cases hk : k = kind
  · subst hk
    simp only [if_true, true_and, Option.bind_some, Table.get?_insert, get?_ofKind]
  · simp only [hk, if_false, false_and]
    rfl

theorem find?_remove (k n : String) :
    find? (remove tables kind name) k n =
      if k = kind ∧ n = name then none else find? tables k n := by
  rw [find?, remove, Table.get?_modify]
  by_cases hk : k = kind
  · subst hk
    cases h : tables.get? k with
    | none => simp [find?, h]
    | some table => simp [find?, h, Table.get?_erase]
  · simp only [hk, if_false, false_and]
    rfl

theorem find?_change (f : Component → Component) (k n : String) :
    find? (change tables kind name f) k n =
      if k = kind ∧ n = name then (find? tables k n).map f else find? tables k n := by
  rw [find?, change, Table.get?_modify]
  by_cases hk : k = kind
  · subst hk
    cases h : tables.get? k with
    | none => simp [find?, h]
    | some table =>
        by_cases hn : n = name <;> simp [find?, h, Table.get?_modify, hn]
  · simp only [hk, if_false, false_and]
    rfl

end ComponentTables

namespace Store

def componentsAt (s : Store) : Option String → ComponentTables
  | none => s.components
  | some key => ((s.trigger? key).map (·.components)).getD .empty

def componentAt? (s : Store) (scope : Option String) (kind name : String) : Option Component :=
  (s.componentsAt scope).find? kind name

def variablesAt (s : Store) : Option String → Table Variable
  | none => s.globalVariables
  | some key => (s.localVariables.get? key).getD .empty

def variableAt? (s : Store) (scope : Option String) (name : String) : Option Variable :=
  (s.variablesAt scope).get? name

variable (s : Store) (key kind name : String)

theorem tablesFor_bind (info : NameInfo) :
    ((s.tablesFor info).bind fun tables => ComponentTables.find? tables kind name) =
      s.componentAt? info.home kind name := by
  cases info with
  | mk scope k key =>
      cases scope with
      | global => rfl
      | trigger =>
          simp only [tablesFor, componentAt?, NameInfo.home, ScopeKind.home, componentsAt]
          cases s.trigger? (key.getD "") <;> rfl

theorem component?_eq :
    s.component? name =
      (s.componentInfo? name).bind fun info => s.componentAt? info.home info.kind name := by
  rw [component?]
  congr
  funext info
  exact s.tablesFor_bind info.kind name info

theorem findVariable?_eq :
    s.findVariable? name =
      (s.variableInfo? name).bind fun info => s.variableAt? info.home name := by
  rw [findVariable?]
  congr
  funext info
  cases info with
  | mk scope k key =>
      cases scope with
      | global => rfl
      | trigger =>
          simp only [variableAt?, variablesAt, NameInfo.home, ScopeKind.home]
          cases s.localVariables.get? (key.getD "") <;> rfl

theorem componentInfo?_eq_some {info : NameInfo} :
    s.componentInfo? name = some info ↔ s.nameInfo? name = some info ∧ info.isVariable = false := by
  simp [componentInfo?, Option.filter_eq_some_iff]

theorem variableInfo?_eq_some {info : NameInfo} :
    s.variableInfo? name = some info ↔ s.nameInfo? name = some info ∧ info.isVariable = true := by
  simp [variableInfo?, Option.filter_eq_some_iff]

def withName (s : Store) (name : String) (info : NameInfo) : Store :=
  { s with names := s.names.insert name info }

theorem nameInfo?_withName (info : NameInfo) (other : String) :
    (s.withName name info).nameInfo? other =
      if other = name then some info else s.nameInfo? other :=
  s.names.get?_insert name other info

theorem register?_eq_some {s : Store} {name : String} {info : NameInfo} {s' : Store} :
    s.register? name info = some s' ↔ s.nameInfo? name = none ∧ s' = s.withName name info := by
  rw [register?]
  split
  · next h =>
      have hsome : (s.nameInfo? name).isSome := h
      simp only [reduceCtorEq, false_iff, not_and]
      intro hnone
      simp [hnone] at hsome
  · next h =>
      have hnone : s.nameInfo? name = none := by
        simpa [isRegistered, Table.contains, nameInfo?] using h
      simp [hnone, withName, eq_comm]

theorem register?_eq_none {s : Store} {name : String} {info : NameInfo} :
    s.register? name info = none ↔ s.isRegistered name = true := by
  rw [register?]
  split <;> simp_all

theorem nameInfo?_unregister (other : String) :
    (s.unregister name).nameInfo? other = if other = name then none else s.nameInfo? other :=
  s.names.get?_erase name other

theorem componentAt?_unregister (other : String) (scope : Option String) :
    (s.unregister other).componentAt? scope kind name = s.componentAt? scope kind name := by
  cases scope <;> rfl

theorem variableAt?_unregister (other : String) (scope : Option String) :
    (s.unregister other).variableAt? scope name = s.variableAt? scope name := by
  cases scope <;> rfl

theorem trigger?_changeTrigger (f : Trigger → Trigger) (other : String) :
    (s.changeTrigger key f).trigger? other =
      if other = key then some (f (s.triggerOrFresh key "")) else s.trigger? other :=
  s.triggers.get?_insert key other _

theorem trigger?_declareTrigger (other : String) :
    (s.declareTrigger key kind).trigger? other =
      if other = key then some (s.triggerOrFresh key kind) else s.trigger? other :=
  s.triggers.get?_insert key other _

theorem components_triggerOrFresh :
    (s.triggerOrFresh key kind).components = s.componentsAt (some key) := by
  rw [triggerOrFresh, componentsAt]
  cases s.trigger? key <;> rfl

theorem componentsAt_changeTrigger (f : Trigger → Trigger) (scope : Option String) :
    (s.changeTrigger key f).componentsAt scope =
      if scope = some key then (f (s.triggerOrFresh key "")).components
      else s.componentsAt scope := by
  cases scope with
  | none => rfl
  | some other =>
      rw [componentsAt, trigger?_changeTrigger]
      by_cases h : other = key
      · simp [h]
      · simp [h, componentsAt]

theorem componentsAt_changeTrigger_of_keep {f : Trigger → Trigger}
    (hf : ∀ t, (f t).components = t.components) (scope : Option String) :
    (s.changeTrigger key f).componentsAt scope = s.componentsAt scope := by
  rw [componentsAt_changeTrigger, hf, components_triggerOrFresh]
  split
  · next h => rw [h]
  · rfl

theorem componentAt?_changeTrigger_of_keep {f : Trigger → Trigger}
    (hf : ∀ t, (f t).components = t.components) (scope : Option String) :
    (s.changeTrigger key f).componentAt? scope kind name = s.componentAt? scope kind name := by
  rw [componentAt?, componentsAt_changeTrigger_of_keep s key hf, componentAt?]

theorem componentsAt_declareTrigger (scope : Option String) :
    (s.declareTrigger key kind).componentsAt scope = s.componentsAt scope := by
  cases scope with
  | none => rfl
  | some other =>
      rw [componentsAt, trigger?_declareTrigger]
      by_cases h : other = key
      · subst h
        simpa using s.components_triggerOrFresh other kind
      · simp [h, componentsAt]

theorem componentAt?_placeComponent (c : Component) (scope : Option String) :
    (s.placeComponent c).componentAt? scope kind name =
      if scope = c.home ∧ kind = c.kind ∧ name = c.name then some c
      else s.componentAt? scope kind name := by
  rw [placeComponent, componentAt?, componentAt?, Component.home]
  cases c.scope with
  | global =>
      cases scope with
      | none => simpa [componentsAt, ScopeKind.home] using s.components.find?_place c.kind c.name c kind name
      | some other => simp [componentsAt, ScopeKind.home, trigger?]
  | trigger =>
      rw [componentsAt_changeTrigger]
      by_cases h : scope = some (c.key.getD "")
      · simp [h, ScopeKind.home, ComponentTables.find?_place, components_triggerOrFresh]
      · simp [h, ScopeKind.home]

theorem componentsAt_changeTables (info : NameInfo) {f : ComponentTables → ComponentTables}
    (hf : f .empty = .empty) (scope : Option String) :
    (s.changeTables info f).componentsAt scope =
      if scope = info.home then f (s.componentsAt scope) else s.componentsAt scope := by
  rw [changeTables, NameInfo.home]
  cases info.scope with
  | global => cases scope <;> simp [componentsAt, ScopeKind.home, trigger?]
  | trigger =>
      cases scope with
      | none => simp [componentsAt, ScopeKind.home]
      | some other =>
          simp only [componentsAt, trigger?, Table.get?_modify, ScopeKind.home, Option.some.injEq]
          by_cases h : other = info.key.getD ""
          · subst h
            cases s.triggers.get? (info.key.getD "") <;> simp [hf]
          · simp [h]

theorem componentAt?_remove (info : NameInfo) (other : String) (scope : Option String) :
    (s.changeTables info fun t => ComponentTables.remove t info.kind other).componentAt? scope kind
        name =
      if scope = info.home ∧ kind = info.kind ∧ name = other then none
      else s.componentAt? scope kind name := by
  rw [componentAt?, componentsAt_changeTables s info rfl, componentAt?]
  by_cases h : scope = info.home <;> simp [h, ComponentTables.find?_remove]

theorem componentAt?_change (info : NameInfo) (other : String) (f : Component → Component)
    (scope : Option String) :
    (s.changeTables info fun t => ComponentTables.change t info.kind other f).componentAt? scope
        kind name =
      if scope = info.home ∧ kind = info.kind ∧ name = other then
        (s.componentAt? scope kind name).map f
      else s.componentAt? scope kind name := by
  rw [componentAt?, componentsAt_changeTables s info rfl, componentAt?]
  by_cases h : scope = info.home <;> simp [h, ComponentTables.find?_change]

@[simp] theorem nameInfo?_changeTables (info : NameInfo) (f : ComponentTables → ComponentTables) :
    (s.changeTables info f).nameInfo? name = s.nameInfo? name := by
  rw [changeTables]
  cases info.scope <;> rfl

@[simp] theorem variableAt?_changeTables (info : NameInfo) (f : ComponentTables → ComponentTables)
    (scope : Option String) :
    (s.changeTables info f).variableAt? scope name = s.variableAt? scope name := by
  rw [changeTables]
  cases info.scope <;> cases scope <;> rfl

@[simp] theorem nameInfo?_placeComponent (c : Component) :
    (s.placeComponent c).nameInfo? name = s.nameInfo? name := by
  rw [placeComponent]
  cases c.scope <;> rfl

@[simp] theorem variableAt?_placeComponent (c : Component) (scope : Option String) :
    (s.placeComponent c).variableAt? scope name = s.variableAt? scope name := by
  rw [placeComponent]
  cases c.scope <;> cases scope <;> rfl

theorem variableAt?_placeVariable (v : Variable) (scope : Option String) :
    (s.placeVariable v).variableAt? scope name =
      if scope = v.home ∧ name = v.name then some v else s.variableAt? scope name := by
  rw [placeVariable, variableAt?, variableAt?, Variable.home]
  cases v.scope with
  | global => cases scope <;> simp [variablesAt, ScopeKind.home, Table.get?_insert]
  | trigger =>
      cases scope with
      | none => simp [variablesAt, ScopeKind.home]
      | some other =>
          simp only [variablesAt, ScopeKind.home, Option.some.injEq, Table.get?_insert]
          by_cases h : other = v.key.getD ""
          · simp [h, Table.get?_insert]
          · simp [h]

@[simp] theorem nameInfo?_placeVariable (v : Variable) :
    (s.placeVariable v).nameInfo? name = s.nameInfo? name := by
  rw [placeVariable]
  cases v.scope <;> rfl

@[simp] theorem componentAt?_placeVariable (v : Variable) (scope : Option String) :
    (s.placeVariable v).componentAt? scope kind name = s.componentAt? scope kind name := by
  rw [placeVariable]
  cases v.scope <;> cases scope <;> rfl

def withoutVariable (s : Store) (info : NameInfo) (name : String) : Store :=
  match info.scope with
  | .global => { s with globalVariables := s.globalVariables.erase name }
  | .trigger => { s with
      localVariables := s.localVariables.modify (info.key.getD "") (·.erase name) }

theorem removeVariable_eq :
    s.removeVariable name =
      match s.variableInfo? name with
      | none => .done s false
      | some info => .done ((s.withoutVariable info name).unregister name) true := rfl

theorem variableAt?_withoutVariable (info : NameInfo) (other : String) (scope : Option String) :
    (s.withoutVariable info other).variableAt? scope name =
      if scope = info.home ∧ name = other then none else s.variableAt? scope name := by
  rw [withoutVariable, variableAt?, variableAt?, NameInfo.home]
  cases info.scope with
  | global => cases scope <;> simp [variablesAt, ScopeKind.home, Table.get?_erase]
  | trigger =>
      cases scope with
      | none => simp [variablesAt, ScopeKind.home]
      | some key =>
          simp only [variablesAt, ScopeKind.home, Option.some.injEq, Table.get?_modify]
          by_cases h : key = info.key.getD ""
          · subst h
            cases s.localVariables.get? (info.key.getD "") <;> simp [Table.get?_erase]
          · simp [h]

@[simp] theorem nameInfo?_withoutVariable (info : NameInfo) (other : String) :
    (s.withoutVariable info other).nameInfo? name = s.nameInfo? name := by
  rw [withoutVariable]
  cases info.scope <;> rfl

@[simp] theorem componentAt?_withoutVariable (info : NameInfo) (other : String)
    (scope : Option String) :
    (s.withoutVariable info other).componentAt? scope kind name =
      s.componentAt? scope kind name := by
  rw [withoutVariable]
  cases info.scope <;> cases scope <;> rfl

end Store

end Instrument
