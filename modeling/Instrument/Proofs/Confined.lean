import Instrument.Proofs.Cells

namespace Instrument.Store

variable {s t u : Store} {home : Option String} {owner : Option Owner}

/-- Whatever differs between two stores lies in one scope: a component that is new there, a variable,
or the value of a trigger for one; or it is an attribute of one owner. -/
structure Confined (home : Option String) (owner : Option Owner) (s t : Store) : Prop where
  of_component : ∀ scope kind name, t.componentAt? scope kind name ≠ s.componentAt? scope kind name →
    scope = home ∧ (s.componentAt? scope kind name = none ∨ owner = some (.component name kind))
  of_variable : ∀ scope name, t.variableAt? scope name ≠ s.variableAt? scope name → scope = home
  of_override : ∀ key name, t.override? name key ≠ s.override? name key → home = some key
  of_cell : ∀ key attr, t.triggerCell? key attr ≠ s.triggerCell? key attr →
    ∃ kind, owner = some (.trigger key kind)

theorem Confined.refl (home : Option String) (owner : Option Owner) (s : Store) :
    Confined home owner s s where
  of_component _ _ _ h := absurd rfl h
  of_variable _ _ h := absurd rfl h
  of_override _ _ h := absurd rfl h
  of_cell _ _ h := absurd rfl h

theorem Confined.trans (h : Confined home owner s t) (h' : Confined home owner t u) :
    Confined home owner s u where
  of_component scope kind name hne := by
    by_cases hsame : t.componentAt? scope kind name = s.componentAt? scope kind name
    · rw [← hsame] at hne ⊢
      exact h'.of_component scope kind name hne
    · exact h.of_component scope kind name hsame
  of_variable scope name hne := by
    by_cases hsame : t.variableAt? scope name = s.variableAt? scope name
    · rw [← hsame] at hne
      exact h'.of_variable scope name hne
    · exact h.of_variable scope name hsame
  of_override key name hne := by
    by_cases hsame : t.override? name key = s.override? name key
    · rw [← hsame] at hne
      exact h'.of_override key name hne
    · exact h.of_override key name hsame
  of_cell key attr hne := by
    by_cases hsame : t.triggerCell? key attr = s.triggerCell? key attr
    · rw [← hsame] at hne
      exact h'.of_cell key attr hne
    · exact h.of_cell key attr hsame

theorem overrides_triggerOrFresh (s : Store) (key kind name : String) :
    (s.triggerOrFresh key kind).overrides.get? name = s.override? name key := by
  rw [triggerOrFresh, override?]
  cases s.trigger? key <;> rfl

theorem override?_changeTrigger (s : Store) (key : String) (f : Trigger → Trigger)
    (name other : String) :
    (s.changeTrigger key f).override? name other =
      if other = key then (f (s.triggerOrFresh key "")).overrides.get? name
      else s.override? name other := by
  rw [override?, trigger?_changeTrigger]
  split <;> rfl

theorem confined_changeTrigger (s : Store) (key : String) {f : Trigger → Trigger}
    (hcomponents : ∀ t, (f t).components = t.components)
    (hoverrides : (∀ t, (f t).overrides = t.overrides) ∨ home = some key)
    (hattributes : (∀ t, (f t).attributes = t.attributes) ∨ ∃ kind, owner = some (.trigger key kind)) :
    Confined home owner s (s.changeTrigger key f) where
  of_component scope kind name hne := by
    exact absurd (s.componentAt?_changeTrigger_of_keep key kind name hcomponents scope) hne
  of_variable scope name hne := by
    refine absurd ?_ hne
    cases scope <;> rfl
  of_override other name hne := by
    rw [override?_changeTrigger] at hne
    split at hne
    · next heq =>
        subst heq
        rcases hoverrides with hkeep | hhome
        · rw [hkeep, overrides_triggerOrFresh] at hne
          exact absurd rfl hne
        · exact hhome
    · exact absurd rfl hne
  of_cell other attr hne := by
    rw [triggerCell?_changeTrigger] at hne
    split at hne
    · next heq =>
        subst heq
        rcases hattributes with hkeep | howner
        · rw [hkeep, attributes_triggerOrFresh] at hne
          exact absurd rfl hne
        · exact howner
    · exact absurd rfl hne

theorem confined_declareTrigger (s : Store) (key kind : String) :
    Confined home owner s (s.declareTrigger key kind) where
  of_component scope kind' name hne := by
    refine absurd ?_ hne
    rw [componentAt?, componentsAt_declareTrigger, componentAt?]
  of_variable scope name hne := by
    refine absurd ?_ hne
    cases scope <;> rfl
  of_override other name hne := by
    refine absurd ?_ hne
    rw [override?, trigger?_declareTrigger]
    split
    · next heq => rw [heq, Option.bind_some, overrides_triggerOrFresh]
    · rfl
  of_cell other attr hne := by
    refine absurd ?_ hne
    rw [triggerCell?, triggerCells, trigger?_declareTrigger]
    by_cases h : other = key
    · rw [if_pos h, h, triggerCell?, ← s.attributes_triggerOrFresh key kind]
    · rw [if_neg h]
      rfl

theorem confined_updateTrigger (s : Store) (key kind attr : String)
    (f : Cell → Except DatumError Cell) :
    Confined home (some (.trigger key kind)) s (s.updateTrigger key attr f).store := by
  simp only [updateTrigger]
  cases f (Cell.ofOption ((s.triggerOrFresh key "").attributes.get? attr)) with
  | error e =>
      exact s.confined_changeTrigger key (f := id) (fun _ => rfl) (.inl fun _ => rfl)
        (.inl fun _ => rfl)
  | ok cell =>
      exact s.confined_changeTrigger key (f := (·.setCell attr cell)) (fun _ => rfl)
        (.inl fun _ => rfl) (.inr ⟨kind, rfl⟩)

theorem confined_setOverride (s : Store) (name : String) (d : Datum) (key : String) :
    Confined (some key) owner s (s.setOverride name d key).store := by
  rw [setOverride]
  cases Value.ofDatum d with
  | error e =>
      exact s.confined_changeTrigger key (f := id) (fun _ => rfl) (.inl fun _ => rfl)
        (.inl fun _ => rfl)
  | ok value =>
      exact s.confined_changeTrigger key
        (f := fun t => { t with overrides := t.overrides.insert name value }) (fun _ => rfl)
        (.inr rfl) (.inl fun _ => rfl)

theorem confined_changeComponent {kind name : String} {c : Component} (hs : s.Coherent)
    (hc : s.componentAt? home kind name = some c) {f : Component → Component}
    (hf : ∀ c, (f c).name = c.name ∧ (f c).kind = c.kind ∧ (f c).scope = c.scope ∧ (f c).key = c.key) :
    Confined home (some (.component name kind)) s (s.changeComponent name f) where
  of_component scope kind' name' hne := by
    rw [hs.componentAt?_changeComponent hc] at hne
    split at hne
    · next heq =>
        obtain ⟨rfl, rfl, rfl⟩ := heq
        exact ⟨rfl, .inr rfl⟩
    · exact absurd rfl hne
  of_variable scope name' hne := absurd ((s.keeps_changeComponent name hf).variableAt?_eq ..) hne
  of_override key name' hne := by
    refine absurd ?_ hne
    obtain ⟨g, hg, htrigger⟩ := s.trigger?_changeComponent name key f
    rw [override?, htrigger, override?]
    cases s.trigger? key with
    | none => rfl
    | some t => simp only [Option.map_some, Option.bind_some, (hg t).2.2.2]
  of_cell key attr hne := by
    refine absurd ?_ hne
    obtain ⟨g, hg, htrigger⟩ := s.trigger?_changeComponent name key f
    rw [triggerCell?, triggerCells, htrigger, triggerCell?, triggerCells]
    cases s.trigger? key with
    | none => rfl
    | some t => simp only [Option.map_some, (hg t).2.2.1]

theorem confined_updateComponent {kind name : String} {c : Component} (hs : s.Coherent)
    (hc : s.componentAt? home kind name = some c) (attr : String)
    (f : Cell → Except DatumError Cell) :
    Confined home (some (.component name kind)) s (s.updateComponent name attr f).store := by
  rw [updateComponent]
  cases s.component? name with
  | none => exact .refl ..
  | some c' =>
      simp only
      cases f (Cell.ofOption (c'.cell? attr)) with
      | error e => exact .refl ..
      | ok cell => exact confined_changeComponent hs hc fun _ => ⟨rfl, rfl, rfl, rfl⟩

theorem confined_write {owner : Owner} (hs : s.Coherent)
    (hknown : ∀ name kind, owner = .component name kind →
      ∃ c, s.componentAt? home kind name = some c) (attr : String) (a : Attribute) :
    Confined home (some owner) s (s.write owner attr a) := by
  cases owner with
  | component name kind =>
      obtain ⟨c, hc⟩ := hknown name kind rfl
      have hkeeps := s.keeps_updateComponent name attr (Cell.setValue · (Value.given a.value))
      obtain ⟨c', hc'⟩ := hkeeps.componentAt?_some hc
      exact (confined_updateComponent hs hc attr _).trans
        (confined_updateComponent (hkeeps.coherent hs) hc' attr _)
  | trigger key kind =>
      exact (s.confined_updateTrigger key kind attr _).trans (confined_updateTrigger _ key kind attr _)

theorem override?_placeComponent (s : Store) (c : Component) (name key : String) :
    (s.placeComponent c).override? name key = s.override? name key := by
  rw [placeComponent]
  cases c.scope with
  | global => rfl
  | trigger =>
      simp only
      rw [override?_changeTrigger]
      split
      · next h => rw [h, ← overrides_triggerOrFresh]
      · rfl

theorem triggerCell?_placeComponent (s : Store) (c : Component) (key attr : String) :
    (s.placeComponent c).triggerCell? key attr = s.triggerCell? key attr := by
  rw [placeComponent]
  cases c.scope with
  | global => rfl
  | trigger =>
      simp only
      rw [triggerCell?_changeTrigger]
      split
      · next h => rw [h, triggerCell?, ← attributes_triggerOrFresh]
      · rfl

theorem addComponent_bare (s : Store) (kind name : String) (home : Option String) :
    ((s.addComponent kind name (.ofHome home) home []).answer ≠ .ok true ∧
      (s.addComponent kind name (.ofHome home) home []).store = s) ∨
    ((s.addComponent kind name (.ofHome home) home []).answer = .ok true ∧
      s.nameInfo? name = none ∧
      (s.addComponent kind name (.ofHome home) home []).store =
        (s.withName name ⟨.ofHome home, kind, home⟩).placeComponent
          { kind, name, scope := .ofHome home, key := home, attributes := .empty }) := by
  cases hkey : (ScopeKind.ofHome home).lacksKey home with
  | true =>
      rw [addComponent, if_pos hkey]
      exact .inl ⟨by simp, rfl⟩
  | false =>
      have hanswer : ∃ answer, (s.addComponent kind name (.ofHome home) home []).answer = .ok answer := by
        simp only [addComponent, hkey, Bool.false_eq_true, if_false, readAttributes]
        cases s.register? name ⟨.ofHome home, kind, home⟩ with
        | none => exact ⟨false, rfl⟩
        | some registered => exact ⟨true, rfl⟩
      obtain ⟨answer, hanswer⟩ := hanswer
      obtain ⟨rfl, -, hstore⟩ | ⟨rfl, -, hfree, cells, hcells, hstore⟩ := addComponent_cases hanswer
      · exact .inl ⟨by simp [hanswer], hstore⟩
      · have hempty : cells = .empty := (Except.ok.inj hcells).symm
        rw [ScopeKind.home_ofHome, hempty] at hstore
        exact .inr ⟨hanswer, hfree, hstore⟩

theorem addVariable_value (s : Store) (name : String) (v : Value) (home : Option String)
    (lower upper : Datum) (line : Option Int) :
    ((s.addVariable name (.value v) (.ofHome home) home lower upper line).answer ≠ .ok true ∧
      (s.addVariable name (.value v) (.ofHome home) home lower upper line).store = s) ∨
    ∃ registered, (s.addVariable name (.value v) (.ofHome home) home lower upper line).answer = .ok true ∧
      (registered = s ∨
        s.nameInfo? name = none ∧ registered = s.withName name ⟨.ofHome home, variableKind, home⟩) ∧
      (s.addVariable name (.value v) (.ofHome home) home lower upper line).store =
        registered.placeVariable ⟨name, some v, .ofHome home, home, lower, upper, line⟩ := by
  cases hkey : (ScopeKind.ofHome home).lacksKey home with
  | true =>
      rw [addVariable, if_pos hkey]
      exact .inl ⟨by simp, rfl⟩
  | false =>
      have hanswer : ∃ answer,
          (s.addVariable name (.value v) (.ofHome home) home lower upper line).answer = .ok answer := by
        simp only [addVariable, hkey, Bool.false_eq_true, if_false, Value.ofDatum]
        split
        · exact ⟨false, rfl⟩
        · exact ⟨true, rfl⟩
      obtain ⟨answer, hanswer⟩ := hanswer
      obtain ⟨rfl, -, hstore⟩ | ⟨rfl, -, value, registered, hvalue, hregistered, hstore⟩ :=
        addVariable_cases hanswer
      · exact .inl ⟨by simp [hanswer], hstore⟩
      · rw [ScopeKind.home_ofHome] at hregistered hstore
        have hsome : value = some v := (Except.ok.inj hvalue).symm
        rw [hsome] at hstore
        refine .inr ⟨registered, hanswer, ?_, hstore⟩
        rcases hregistered with ⟨h, -⟩ | ⟨h, hfree⟩
        · exact .inl h
        · exact .inr ⟨hfree, h⟩

section AddVariable

variable (s : Store) (name : String) (v : Value) (home : Option String) (lower upper : Datum)
  (line : Option Int)

theorem trigger?_addVariable (key : String) :
    (s.addVariable name (.value v) (.ofHome home) home lower upper line).store.trigger? key =
      s.trigger? key := by
  obtain ⟨-, hstore⟩ | ⟨registered, -, hregistered, hstore⟩ :=
    addVariable_value s name v home lower upper line
  · rw [hstore]
  · rw [hstore, placeVariable]
    rcases hregistered with rfl | ⟨-, rfl⟩ <;> cases home <;> rfl

theorem componentAt?_addVariable (scope : Option String) (kind other : String) :
    (s.addVariable name (.value v) (.ofHome home) home lower upper line).store.componentAt? scope kind
      other = s.componentAt? scope kind other := by
  obtain ⟨-, hstore⟩ | ⟨registered, -, hregistered, hstore⟩ :=
    addVariable_value s name v home lower upper line
  · rw [hstore]
  · rw [hstore, componentAt?_placeVariable]
    rcases hregistered with rfl | ⟨-, rfl⟩
    · rfl
    · exact componentAt?_withName ..

end AddVariable

theorem confined_addComponent (hs : s.Coherent) (kind name : String) :
    Confined home owner s (s.addComponent kind name (.ofHome home) home []).store := by
  obtain ⟨-, hstore⟩ | ⟨-, hfree, hstore⟩ := addComponent_bare s kind name home
  · rw [hstore]
    exact .refl ..
  · rw [hstore]
    constructor
    · intro scope kind' name' hne
      rw [componentAt?_placeComponent, Component.home, ScopeKind.home_ofHome, componentAt?_withName] at hne
      split at hne
      · next heq =>
          obtain ⟨rfl, rfl, rfl⟩ := heq
          refine ⟨rfl, .inl ?_⟩
          cases hc : s.componentAt? scope kind' name' with
          | none => rfl
          | some c =>
              obtain ⟨info, hinfo, -⟩ := hs.componentInfo?_eq hc
              rw [componentInfo?, hfree] at hinfo
              cases hinfo
      · exact absurd rfl hne
    · intro scope name' hne
      rw [variableAt?_placeComponent] at hne
      refine absurd ?_ hne
      cases scope <;> rfl
    · intro key name' hne
      rw [override?_placeComponent] at hne
      exact absurd rfl hne
    · intro key attr hne
      rw [triggerCell?_placeComponent] at hne
      exact absurd rfl hne

theorem confined_addVariable (s : Store) (name : String) (v : Value) (lower upper : Datum)
    (line : Option Int) :
    Confined home owner s
      (s.addVariable name (.value v) (.ofHome home) home lower upper line).store := by
  constructor
  · intro scope kind name' hne
    exact absurd (componentAt?_addVariable ..) hne
  · intro scope name' hne
    obtain ⟨-, hstore⟩ | ⟨registered, -, hregistered, hstore⟩ :=
      addVariable_value s name v home lower upper line
    · rw [hstore] at hne
      exact absurd rfl hne
    · rw [hstore, variableAt?_placeVariable, Variable.home, ScopeKind.home_ofHome] at hne
      split at hne
      · next heq => exact heq.1
      · refine absurd ?_ hne
        rcases hregistered with rfl | ⟨-, rfl⟩
        · rfl
        · exact variableAt?_withName ..
  · intro key name' hne
    refine absurd ?_ hne
    rw [override?, trigger?_addVariable, override?]
  · intro key attr hne
    refine absurd ?_ hne
    rw [triggerCell?, triggerCells, trigger?_addVariable, triggerCell?, triggerCells]

end Instrument.Store
