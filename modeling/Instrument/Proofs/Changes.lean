import Instrument.Proofs.Places

namespace Instrument

inductive Place
  | componentTable (scope : Option String) (kind : String)
  | variableTable (scope : Option String)
  deriving DecidableEq

def NameInfo.place (info : NameInfo) : Place :=
  if info.isVariable then .variableTable info.home else .componentTable info.home info.kind

theorem ScopeKind.keyFor_eq_home {scope : ScopeKind} {key : Option String}
    (h : scope.lacksKey key = false) : scope.keyFor key = scope.home key := by
  cases scope with
  | global => rfl
  | trigger =>
      cases key with
      | none => simp [lacksKey] at h
      | some k => rfl

theorem ScopeKind.home_home (scope : ScopeKind) (key : Option String) :
    scope.home (scope.home key) = scope.home key := by
  cases scope <;> rfl

namespace Store

variable {s t : Store}

/-- A change that keeps the names, the variables, and of each component all but its attributes. -/
structure Keeps (s t : Store) : Prop where
  nameInfo?_eq : ∀ name, t.nameInfo? name = s.nameInfo? name
  variableAt?_eq : ∀ scope name, t.variableAt? scope name = s.variableAt? scope name
  componentAt?_eq : ∀ scope kind name, ∃ f : Component → Component,
    (∀ c, (f c).name = c.name ∧ (f c).kind = c.kind ∧ (f c).scope = c.scope ∧ (f c).key = c.key) ∧
      t.componentAt? scope kind name = (s.componentAt? scope kind name).map f

theorem keeps_of_componentsAt (hnames : t.names = s.names)
    (hvariables : ∀ scope, t.variablesAt scope = s.variablesAt scope)
    (hcomponents : ∀ scope, t.componentsAt scope = s.componentsAt scope) : Keeps s t where
  nameInfo?_eq name := by rw [nameInfo?, hnames, nameInfo?]
  variableAt?_eq scope name := by rw [variableAt?, hvariables, variableAt?]
  componentAt?_eq scope kind name :=
    ⟨id, fun _ => ⟨rfl, rfl, rfl, rfl⟩, by simp [componentAt?, hcomponents]⟩

theorem keeps_changeTrigger (s : Store) (key : String) {f : Trigger → Trigger}
    (hf : ∀ t, (f t).components = t.components) : Keeps s (s.changeTrigger key f) :=
  keeps_of_componentsAt rfl (fun scope => by cases scope <;> rfl)
    (s.componentsAt_changeTrigger_of_keep key hf)

theorem keeps_declareTrigger (s : Store) (key kind : String) : Keeps s (s.declareTrigger key kind) :=
  keeps_of_componentsAt rfl (fun scope => by cases scope <;> rfl)
    (s.componentsAt_declareTrigger key kind)

theorem Keeps.refl (s : Store) : Keeps s s :=
  keeps_of_componentsAt rfl (fun _ => rfl) (fun _ => rfl)

theorem Keeps.trans {u : Store} (h : Keeps s t) (h' : Keeps t u) : Keeps s u where
  nameInfo?_eq name := (h'.nameInfo?_eq name).trans (h.nameInfo?_eq name)
  variableAt?_eq scope name := (h'.variableAt?_eq scope name).trans (h.variableAt?_eq scope name)
  componentAt?_eq scope kind name := by
    obtain ⟨f, hlabel, hf⟩ := h.componentAt?_eq scope kind name
    obtain ⟨g, hlabel', hg⟩ := h'.componentAt?_eq scope kind name
    refine ⟨fun c => g (f c), ?_, by rw [hg, hf, Option.map_map]; rfl⟩
    intro c
    obtain ⟨hname, hkind, hscope, hkey⟩ := hlabel c
    obtain ⟨hname', hkind', hscope', hkey'⟩ := hlabel' (f c)
    exact ⟨hname'.trans hname, hkind'.trans hkind, hscope'.trans hscope, hkey'.trans hkey⟩

theorem keeps_changeComponent (s : Store) (name : String) {f : Component → Component}
    (hf : ∀ c, (f c).name = c.name ∧ (f c).kind = c.kind ∧ (f c).scope = c.scope ∧ (f c).key = c.key) :
    Keeps s (s.changeComponent name f) := by
  rw [changeComponent]
  cases s.componentInfo? name with
  | none => exact .refl s
  | some info =>
      refine ⟨fun _ => nameInfo?_changeTables .., fun _ _ => variableAt?_changeTables .., ?_⟩
      intro scope kind other
      rw [componentAt?_change]
      split
      · exact ⟨f, hf, rfl⟩
      · exact ⟨id, fun _ => ⟨rfl, rfl, rfl, rfl⟩, by simp⟩

theorem keeps_updateComponent (s : Store) (name attr : String) (f : Cell → Except DatumError Cell) :
    Keeps s (s.updateComponent name attr f).store := by
  rw [updateComponent]
  cases s.component? name with
  | none => exact .refl s
  | some c =>
      simp only
      cases f (Cell.ofOption (c.cell? attr)) with
      | error e => exact .refl s
      | ok cell => exact s.keeps_changeComponent name fun _ => ⟨rfl, rfl, rfl, rfl⟩

theorem keeps_updateTrigger (s : Store) (key attr : String) (f : Cell → Except DatumError Cell) :
    Keeps s (s.updateTrigger key attr f).store := by
  simp only [updateTrigger]
  cases f (Cell.ofOption ((s.triggerOrFresh key "").attributes.get? attr)) with
  | error e => exact s.keeps_changeTrigger key fun t => rfl
  | ok cell =>
      simp only [Outcome.store_done]
      apply keeps_changeTrigger
      intro t
      rfl

theorem keeps_setOverride (s : Store) (name : String) (d : Datum) (key : String) :
    Keeps s (s.setOverride name d key).store := by
  rw [setOverride]
  cases Value.ofDatum d with
  | error e => exact s.keeps_changeTrigger key fun t => rfl
  | ok value =>
      simp only [Outcome.store_done]
      apply keeps_changeTrigger
      intro t
      rfl

theorem keeps_removeOverride (s : Store) (name key : String) :
    Keeps s (s.removeOverride name key).store := by
  rw [removeOverride]
  cases s.trigger? key with
  | none => exact .refl s
  | some t =>
      simp only
      split
      · simp only [Outcome.store_done]
        apply keeps_changeTrigger
        intro t
        rfl
      · exact .refl s

/-- The entry of a name and what lies under it in one place are replaced, each perhaps by nothing. -/
structure Replaces (name : String) (place : Place) (info : Option NameInfo) (c : Option Component)
    (v : Option Variable) (s t : Store) : Prop where
  nameInfo?_eq : ∀ other, t.nameInfo? other = if other = name then info else s.nameInfo? other
  componentAt?_eq : ∀ scope kind other, t.componentAt? scope kind other =
    if place = .componentTable scope kind ∧ other = name then c else s.componentAt? scope kind other
  variableAt?_eq : ∀ scope other, t.variableAt? scope other =
    if place = .variableTable scope ∧ other = name then v else s.variableAt? scope other

theorem componentAt?_withName (s : Store) (name : String) (info : NameInfo) (scope : Option String)
    (kind other : String) :
    (s.withName name info).componentAt? scope kind other = s.componentAt? scope kind other := by
  cases scope <;> rfl

theorem variableAt?_withName (s : Store) (name : String) (info : NameInfo) (scope : Option String)
    (other : String) : (s.withName name info).variableAt? scope other = s.variableAt? scope other := by
  cases scope <;> rfl

theorem replaces_placeComponent (s : Store) (info : NameInfo) (c : Component) :
    Replaces c.name (.componentTable c.home c.kind) (some info) (some c) none s
      ((s.withName c.name info).placeComponent c) where
  nameInfo?_eq other := by rw [nameInfo?_placeComponent, nameInfo?_withName]
  componentAt?_eq scope kind other := by
    rw [componentAt?_placeComponent, componentAt?_withName]
    simp only [Place.componentTable.injEq, and_assoc, eq_comm]
  variableAt?_eq scope other := by
    rw [variableAt?_placeComponent, variableAt?_withName, if_neg (by simp)]

theorem replaces_placeVariable {registered : Store} {info : NameInfo} {v : Variable}
    (h : registered = s ∧ s.nameInfo? v.name = some info ∨ registered = s.withName v.name info) :
    Replaces v.name (.variableTable v.home) (some info) none (some v) s (registered.placeVariable v) where
  nameInfo?_eq other := by
    rw [nameInfo?_placeVariable]
    obtain ⟨rfl, hinfo⟩ | rfl := h
    · split
      · next heq => rw [heq, hinfo]
      · rfl
    · rw [nameInfo?_withName]
  componentAt?_eq scope kind other := by
    rw [componentAt?_placeVariable, if_neg (by simp)]
    obtain ⟨rfl, -⟩ | rfl := h
    · rfl
    · rw [componentAt?_withName]
  variableAt?_eq scope other := by
    rw [variableAt?_placeVariable]
    simp only [Place.variableTable.injEq, eq_comm]
    obtain ⟨rfl, -⟩ | rfl := h
    · rfl
    · rw [variableAt?_withName]

theorem replaces_removeComponent (s : Store) (info : NameInfo) (name : String) :
    Replaces name (.componentTable info.home info.kind) none none none s
      ((s.changeTables info fun t => ComponentTables.remove t info.kind name).unregister name) where
  nameInfo?_eq other := by rw [nameInfo?_unregister, nameInfo?_changeTables]
  componentAt?_eq scope kind other := by
    rw [componentAt?_unregister, componentAt?_remove]
    simp only [Place.componentTable.injEq, and_assoc, eq_comm]
  variableAt?_eq scope other := by
    rw [variableAt?_unregister, variableAt?_changeTables, if_neg (by simp)]

theorem replaces_removeVariable (s : Store) (info : NameInfo) (name : String) :
    Replaces name (.variableTable info.home) none none none s
      ((s.withoutVariable info name).unregister name) where
  nameInfo?_eq other := by rw [nameInfo?_unregister, nameInfo?_withoutVariable]
  componentAt?_eq scope kind other := by
    rw [componentAt?_unregister, componentAt?_withoutVariable, if_neg (by simp)]
  variableAt?_eq scope other := by
    rw [variableAt?_unregister, variableAt?_withoutVariable]
    simp only [Place.variableTable.injEq, eq_comm]

theorem addComponent_cases {kind name : String} {scope : ScopeKind} {key : Option String}
    {attributes : List (String × Datum)} {answer : Bool}
    (h : (s.addComponent kind name scope key attributes).answer = .ok answer) :
    (answer = false ∧ s.isRegistered name = true ∧
      (s.addComponent kind name scope key attributes).store = s) ∨
    (answer = true ∧ scope.lacksKey key = false ∧ s.nameInfo? name = none ∧
      ∃ cells, readAttributes .empty attributes = .ok cells ∧
        (s.addComponent kind name scope key attributes).store =
          (s.withName name ⟨scope, kind, key⟩).placeComponent
            { kind, name, scope, key := scope.home key, attributes := cells }) := by
  simp only [addComponent] at h ⊢
  by_cases hkey : scope.lacksKey key = true
  · simp [hkey] at h
  · have hlacks : scope.lacksKey key = false := by simpa using hkey
    simp only [hlacks, if_false, Bool.false_eq_true, ScopeKind.keyFor_eq_home hlacks] at h ⊢
    cases hr : s.register? name ⟨scope, kind, key⟩ with
    | none =>
        simp only [hr, Outcome.answer_refused, Except.ok.injEq] at h
        exact .inl ⟨h.symm, register?_eq_none.mp hr, rfl⟩
    | some registered =>
        obtain ⟨hfree, rfl⟩ := register?_eq_some.mp hr
        simp only [hr] at h ⊢
        cases hcells : readAttributes .empty attributes with
        | error e => simp [hcells] at h
        | ok cells =>
            simp only [hcells, Outcome.answer_done, Except.ok.injEq, Outcome.store_done] at h ⊢
            exact .inr ⟨h.symm, trivial, hfree, cells, rfl, rfl⟩

theorem addVariable_cases {name : String} {d : Datum} {scope : ScopeKind} {key : Option String}
    {lower upper : Datum} {line : Option Int} {answer : Bool}
    (h : (s.addVariable name d scope key lower upper line).answer = .ok answer) :
    (answer = false ∧ s.isRegistered name = true ∧
      (s.addVariable name d scope key lower upper line).store = s) ∨
    (answer = true ∧ scope.lacksKey key = false ∧ ∃ value registered,
      Value.ofDatum d = .ok value ∧
      (registered = s ∧ s.nameInfo? name = some ⟨scope, variableKind, scope.home key⟩ ∨
        registered = s.withName name ⟨scope, variableKind, scope.home key⟩ ∧ s.nameInfo? name = none) ∧
      (s.addVariable name d scope key lower upper line).store =
        registered.placeVariable ⟨name, value, scope, scope.home key, lower, upper, line⟩) := by
  simp only [addVariable] at h ⊢
  by_cases hkey : scope.lacksKey key = true
  · simp [hkey] at h
  · have hlacks : scope.lacksKey key = false := by simpa using hkey
    have hhome := ScopeKind.keyFor_eq_home hlacks
    simp only [hlacks, if_false, Bool.false_eq_true, hhome] at h ⊢
    generalize hr : (if s.renews name scope key then some s
      else s.register? name ⟨scope, variableKind, scope.home key⟩) = registered at h ⊢
    cases registered with
    | none =>
        simp only [Outcome.answer_refused, Except.ok.injEq] at h
        refine .inl ⟨h.symm, ?_, rfl⟩
        split at hr
        · simp at hr
        · exact register?_eq_none.mp hr
    | some registered =>
        cases hvalue : Value.ofDatum d with
        | error e => simp [hvalue] at h
        | ok value =>
            simp only [hvalue, Outcome.answer_done, Except.ok.injEq, Outcome.store_done] at h ⊢
            refine .inr ⟨h.symm, trivial, value, registered, rfl, ?_, rfl⟩
            split at hr
            · next hrenews =>
                left
                obtain ⟨info, hinfo, hsame⟩ := (Option.any_eq_true ..).mp hrenews
                simp only [NameInfo.isVariable, Bool.and_eq_true, beq_iff_eq, hhome] at hsame
                obtain ⟨⟨hkind, hscope⟩, hkey⟩ := hsame
                refine ⟨(Option.some.inj hr).symm, ?_⟩
                rw [hinfo, ← hkey, ← hscope, ← hkind]
            · obtain ⟨hfree, rfl⟩ := register?_eq_some.mp hr
              exact .inr ⟨rfl, hfree⟩

theorem replaces_addComponent {kind name : String} {scope : ScopeKind} {key : Option String}
    {attributes : List (String × Datum)} {answer : Bool}
    (h : (s.addComponent kind name scope key attributes).answer = .ok answer) :
    (s.addComponent kind name scope key attributes).store = s ∨
    (scope.lacksKey key = false ∧ s.nameInfo? name = none ∧
      ∃ cells, readAttributes .empty attributes = .ok cells ∧
        Replaces name (.componentTable (scope.home key) kind) (some ⟨scope, kind, key⟩)
          (some { kind, name, scope, key := scope.home key, attributes := cells }) none s
          (s.addComponent kind name scope key attributes).store) := by
  obtain ⟨-, -, hstore⟩ | ⟨-, hkey, hfree, cells, hcells, hstore⟩ := addComponent_cases h
  · exact .inl hstore
  · refine .inr ⟨hkey, hfree, cells, hcells, ?_⟩
    have hreplaces := s.replaces_placeComponent ⟨scope, kind, key⟩
      { kind, name, scope, key := scope.home key, attributes := cells }
    rw [Component.home, scope.home_home] at hreplaces
    rwa [hstore]

theorem replaces_addVariable {name : String} {d : Datum} {scope : ScopeKind} {key : Option String}
    {lower upper : Datum} {line : Option Int} {answer : Bool}
    (h : (s.addVariable name d scope key lower upper line).answer = .ok answer) :
    (s.addVariable name d scope key lower upper line).store = s ∨
    (scope.lacksKey key = false ∧
      (s.nameInfo? name = none ∨ s.nameInfo? name = some ⟨scope, variableKind, scope.home key⟩) ∧
      ∃ value, Value.ofDatum d = .ok value ∧
        Replaces name (.variableTable (scope.home key)) (some ⟨scope, variableKind, scope.home key⟩) none
          (some ⟨name, value, scope, scope.home key, lower, upper, line⟩) s
          (s.addVariable name d scope key lower upper line).store) := by
  obtain ⟨-, -, hstore⟩ | ⟨-, hkey, value, registered, hvalue, hregistered, hstore⟩ :=
    addVariable_cases h
  · exact .inl hstore
  · refine .inr ⟨hkey, hregistered.symm.imp And.right And.right, value, hvalue, ?_⟩
    have hreplaces := replaces_placeVariable
      (v := ⟨name, value, scope, scope.home key, lower, upper, line⟩) (hregistered.imp_right And.left)
    rw [Variable.home, scope.home_home] at hreplaces
    rwa [hstore]

theorem inScope_of_ok {scope : Datum} {run : ScopeKind → Outcome Bool} {answer : Bool}
    (h : (Outcome.inScope s scope run).answer = .ok answer) :
    ∃ sc, ScopeKind.read scope = .ok sc ∧ Outcome.inScope s scope run = run sc := by
  rw [Outcome.inScope] at h ⊢
  cases hsc : ScopeKind.read scope with
  | error e => simp [hsc] at h
  | ok sc => exact ⟨sc, rfl, rfl⟩

end Store

namespace Operation

open Store

/-- What an operation that succeeds makes of a store. It may keep the names because it is refused, or
because it writes something else. -/
inductive Changes (s : Store) : Operation → Store → Prop
  | clears : Changes s .reset .empty
  | keeps {op : Operation} {t : Store} (hkeeps : Keeps s t) : Changes s op t
  | adds {kind name : String} {scope : Datum} {key : Option String}
      {attributes : List (String × Datum)} {sc : ScopeKind} {cells : Table Cell} {t : Store}
      (hscope : ScopeKind.read scope = .ok sc) (hkey : sc.lacksKey key = false)
      (hfree : s.nameInfo? name = none) (hcells : readAttributes .empty attributes = .ok cells)
      (hreplaces : Replaces name (.componentTable (sc.home key) kind) (some ⟨sc, kind, key⟩)
        (some { kind, name, scope := sc, key := sc.home key, attributes := cells }) none s t) :
      Changes s (.addComponent kind name scope key attributes) t
  | declares {name : String} {d scope : Datum} {key : Option String} {lower upper : Datum}
      {line : Option Int} {sc : ScopeKind} {value : Option Value} {t : Store}
      (hscope : ScopeKind.read scope = .ok sc) (hkey : sc.lacksKey key = false)
      (hfree : s.nameInfo? name = none ∨
        s.nameInfo? name = some ⟨sc, variableKind, sc.home key⟩)
      (hvalue : Value.ofDatum d = .ok value)
      (hreplaces : Replaces name (.variableTable (sc.home key))
        (some ⟨sc, variableKind, sc.home key⟩) none
        (some ⟨name, value, sc, sc.home key, lower, upper, line⟩) s t) :
      Changes s (.addVariable name d scope key lower upper line) t
  | takes {op : Operation} {name : String} {info : NameInfo} {t : Store}
      (hop : op = .removeComponent name ∨ op = .removeVariable name)
      (hinfo : s.nameInfo? name = some info)
      (hreplaces : Replaces name info.place none none none s t) : Changes s op t

variable {s : Store}

theorem changes_removeComponent (s : Store) (name : String) :
    Changes s (.removeComponent name) (s.removeComponent name).store := by
  rw [Store.removeComponent]
  cases hinfo : s.componentInfo? name with
  | none => exact .keeps (.refl s)
  | some info =>
      obtain ⟨hregistered, hkind⟩ := (componentInfo?_eq_some s name).mp hinfo
      have hplace : info.place = .componentTable info.home info.kind := by simp [NameInfo.place, hkind]
      refine .takes (.inl rfl) hregistered ?_
      rw [hplace]
      exact s.replaces_removeComponent info name

theorem changes_removeVariable (s : Store) (name : String) :
    Changes s (.removeVariable name) (s.removeVariable name).store := by
  rw [removeVariable_eq]
  cases hinfo : s.variableInfo? name with
  | none => exact .keeps (.refl s)
  | some info =>
      obtain ⟨hregistered, hkind⟩ := (variableInfo?_eq_some s name).mp hinfo
      have hplace : info.place = .variableTable info.home := by simp [NameInfo.place, hkind]
      refine .takes (.inr rfl) hregistered ?_
      rw [hplace]
      exact s.replaces_removeVariable info name

theorem changes_addComponent {kind name : String} {scope : Datum} {key : Option String}
    {attributes : List (String × Datum)} {answer : Bool}
    (h : ((addComponent kind name scope key attributes).run s).answer = .ok answer) :
    Changes s (.addComponent kind name scope key attributes)
      ((addComponent kind name scope key attributes).run s).store := by
  obtain ⟨sc, hscope, hrun⟩ := inScope_of_ok h
  simp only [run] at h ⊢
  rw [hrun] at h ⊢
  obtain hstore | ⟨hkey, hfree, cells, hcells, hreplaces⟩ := replaces_addComponent h
  · rw [hstore]
    exact .keeps (.refl s)
  · exact .adds hscope hkey hfree hcells hreplaces

theorem changes_addVariable {name : String} {d scope : Datum} {key : Option String} {lower upper : Datum}
    {line : Option Int} {answer : Bool}
    (h : ((addVariable name d scope key lower upper line).run s).answer = .ok answer) :
    Changes s (.addVariable name d scope key lower upper line)
      ((addVariable name d scope key lower upper line).run s).store := by
  obtain ⟨sc, hscope, hrun⟩ := inScope_of_ok h
  simp only [run] at h ⊢
  rw [hrun] at h ⊢
  obtain hstore | ⟨hkey, hfree, value, hvalue, hreplaces⟩ := replaces_addVariable h
  · rw [hstore]
    exact .keeps (.refl s)
  · exact .declares hscope hkey hfree hvalue hreplaces

theorem changes_of_ok {op : Operation} {answer : Bool} (h : (op.run s).answer = .ok answer) :
    op.Changes s (op.run s).store := by
  cases op with
  | reset => exact .clears
  | declareTrigger key kind => exact .keeps (s.keeps_declareTrigger key kind)
  | addComponent => exact changes_addComponent h
  | removeComponent name => exact changes_removeComponent s name
  | setComponentAttribute name attr d => exact .keeps (s.keeps_updateComponent name attr _)
  | setComponentModulation name attr modulation => exact .keeps (s.keeps_updateComponent name attr _)
  | addVariable => exact changes_addVariable h
  | removeVariable name => exact changes_removeVariable s name
  | setOverride name d key => exact .keeps (s.keeps_setOverride name d key)
  | removeOverride name key => exact .keeps (s.keeps_removeOverride name key)
  | setTriggerAttribute key attr d => exact .keeps (s.keeps_updateTrigger key attr _)
  | setTriggerModulation key attr modulation => exact .keeps (s.keeps_updateTrigger key attr _)

end Operation

end Instrument
