import Instrument.Proofs.Confined

namespace Instrument.Store

variable {s t : Store}

/-- What is registered or there stays so, and attributes and triggers are as they were. -/
structure Grows (s t : Store) : Prop where
  nameInfo? : ∀ {name info}, s.nameInfo? name = some info → t.nameInfo? name = some info
  knows : ∀ {owner}, s.Knows owner → t.Knows owner
  hasCell : ∀ {owner attr cell}, t.HasCell owner attr cell → s.HasCell owner attr cell
  trigger? : ∀ {key x}, t.trigger? key = some x →
    ∃ y, s.trigger? key = some y ∧ y.key = x.key ∧ y.kind = x.kind

theorem Grows.refl (s : Store) : Grows s s where
  nameInfo? h := h
  knows h := h
  hasCell h := h
  trigger? h := ⟨_, h, rfl, rfl⟩

def SameTriggers (s t : Store) : Prop :=
  ∀ key, ∃ g : Trigger → Trigger,
    (∀ x, (g x).key = x.key ∧ (g x).kind = x.kind ∧ (g x).attributes = x.attributes) ∧
      t.trigger? key = (s.trigger? key).map g

theorem sameTriggers_of_eq (h : ∀ key, t.trigger? key = s.trigger? key) : SameTriggers s t := by
  intro key
  exact ⟨id, fun _ => ⟨rfl, rfl, rfl⟩, by simp [h]⟩

theorem sameTriggers_changeTrigger {key : String} {x : Trigger} {f : Trigger → Trigger}
    (hkey : s.trigger? key = some x)
    (hf : ∀ x, (f x).key = x.key ∧ (f x).kind = x.kind ∧ (f x).attributes = x.attributes) :
    SameTriggers s (s.changeTrigger key f) := by
  intro other
  rw [trigger?_changeTrigger]
  split
  · next h =>
      refine ⟨f, hf, ?_⟩
      rw [h, triggerOrFresh, hkey]
      rfl
  · exact ⟨id, fun _ => ⟨rfl, rfl, rfl⟩, by simp⟩

theorem grows_of (hnames : ∀ {name info}, s.nameInfo? name = some info → t.nameInfo? name = some info)
    (hkept : ∀ {scope kind name c}, s.componentAt? scope kind name = some c →
      ∃ c', t.componentAt? scope kind name = some c')
    (hcells : ∀ {scope kind name c}, t.componentAt? scope kind name = some c →
      s.componentAt? scope kind name = some c ∨ c.attributes = .empty)
    (htriggers : SameTriggers s t) : Grows s t where
  nameInfo? := hnames
  knows {owner} h := by
    cases owner with
    | component name kind =>
        obtain ⟨scope, c, hc⟩ := h
        exact ⟨scope, hkept hc⟩
    | trigger key kind =>
        obtain ⟨x, hx, hkind⟩ := h
        obtain ⟨g, hg, heq⟩ := htriggers key
        exact ⟨g x, by rw [heq, hx, Option.map_some], (hg x).2.1.trans hkind⟩
  hasCell {owner attr cell} h := by
    cases owner with
    | component name kind =>
        obtain ⟨scope, c, hc, hcell⟩ := h
        rcases hcells hc with hsame | hempty
        · exact ⟨scope, c, hsame, hcell⟩
        · rw [Component.cell?, hempty] at hcell
          cases hcell
    | trigger key kind =>
        obtain ⟨x, hx, hkind, hcell⟩ := h
        obtain ⟨g, hg, heq⟩ := htriggers key
        rw [heq] at hx
        obtain ⟨y, hy, rfl⟩ := Option.map_eq_some_iff.1 hx
        exact ⟨y, hy, (hg y).2.1.symm.trans hkind, by rw [← (hg y).2.2]; exact hcell⟩
  trigger? {key x} h := by
    obtain ⟨g, hg, heq⟩ := htriggers key
    rw [heq] at h
    obtain ⟨y, hy, rfl⟩ := Option.map_eq_some_iff.1 h
    exact ⟨y, hy, (hg y).1.symm, (hg y).2.1.symm⟩

theorem grows_of_componentAt? (hnames : ∀ {name info}, s.nameInfo? name = some info → t.nameInfo? name = some info)
    (hcomponents : ∀ scope kind name, t.componentAt? scope kind name = s.componentAt? scope kind name)
    (htriggers : SameTriggers s t) : Grows s t := by
  refine grows_of hnames ?_ ?_ htriggers
  · intro scope kind name c hc
    exact ⟨c, (hcomponents scope kind name).trans hc⟩
  · intro scope kind name c hc
    exact .inl ((hcomponents scope kind name).symm.trans hc)

theorem nameInfo?_withName_of_some {name other : String} {info i : NameInfo}
    (hfree : s.nameInfo? name = none) (h : s.nameInfo? other = some i) :
    (s.withName name info).nameInfo? other = some i := by
  rw [nameInfo?_withName, if_neg]
  · exact h
  · rintro rfl
    rw [hfree] at h
    cases h

theorem grows_addVariable (s : Store) (name : String) (v : Value) (home : Option String)
    (lower upper : Datum) (line : Option Int) :
    Grows s (s.addVariable name (.value v) (.ofHome home) home lower upper line).store := by
  refine grows_of_componentAt? ?_ (componentAt?_addVariable s name v home lower upper line)
    (sameTriggers_of_eq (trigger?_addVariable s name v home lower upper line))
  intro other info h
  obtain ⟨-, hstore⟩ | ⟨registered, -, hregistered, hstore⟩ :=
    addVariable_value s name v home lower upper line
  · rwa [hstore]
  · rw [hstore, nameInfo?_placeVariable]
    rcases hregistered with rfl | ⟨hfree, rfl⟩
    · exact h
    · exact nameInfo?_withName_of_some hfree h

theorem grows_setOverride {key : String} {x : Trigger} (hkey : s.trigger? key = some x) (name : String)
    (v : Value) : Grows s (s.setOverride name (.value v) key).store := by
  have hstore : (s.setOverride name (.value v) key).store =
      s.changeTrigger key fun x => { x with overrides := x.overrides.insert name (some v) } := rfl
  rw [hstore]
  refine grows_of_componentAt? (fun h => h) ?_
    (sameTriggers_changeTrigger hkey fun _ => ⟨rfl, rfl, rfl⟩)
  intro scope kind other
  apply componentAt?_changeTrigger_of_keep
  intro x
  rfl

theorem sameTriggers_placeComponent {c : Component}
    (hkey : ∀ key, c.home = some key → ∃ x, s.trigger? key = some x) :
    SameTriggers s (s.placeComponent c) := by
  rw [placeComponent]
  cases hscope : c.scope with
  | global => exact sameTriggers_of_eq fun _ => rfl
  | trigger =>
      obtain ⟨x, hx⟩ := hkey (c.key.getD "") (by rw [Component.home, hscope]; rfl)
      exact sameTriggers_changeTrigger hx fun _ => ⟨rfl, rfl, rfl⟩

theorem grows_addComponent {home : Option String}
    (hkey : ∀ key, home = some key → ∃ x, s.trigger? key = some x) (kind name : String) :
    Grows s (s.addComponent kind name (.ofHome home) home []).store := by
  obtain ⟨-, hstore⟩ | ⟨-, hfree, hstore⟩ := addComponent_bare s kind name home
  · rw [hstore]
    exact .refl s
  · rw [hstore]
    refine grows_of ?_ ?_ ?_ ?_
    · intro other info h
      rw [nameInfo?_placeComponent]
      exact nameInfo?_withName_of_some hfree h
    · intro scope kind' name' c hc
      rw [componentAt?_placeComponent, componentAt?_withName]
      split
      · exact ⟨_, rfl⟩
      · exact ⟨c, hc⟩
    · intro scope kind' name' c hc
      rw [componentAt?_placeComponent, componentAt?_withName] at hc
      split at hc
      · rw [← Option.some.inj hc]
        exact .inr rfl
      · exact .inl hc
    · refine sameTriggers_placeComponent (s := s.withName name ⟨.ofHome home, kind, home⟩) ?_
      intro key h
      rw [Component.home, ScopeKind.home_ofHome] at h
      exact hkey key h

theorem Knows.declareTrigger {owner : Owner} (h : s.Knows owner) (key kind : String) :
    (s.declareTrigger key kind).Knows owner := by
  cases owner with
  | component name kind' =>
      obtain ⟨scope, c, hc⟩ := h
      exact ⟨scope, (s.keeps_declareTrigger key kind).componentAt?_some hc⟩
  | trigger key' kind' =>
      obtain ⟨x, hx, hkind⟩ := h
      rw [Knows, trigger?_declareTrigger]
      split
      · next heq =>
          refine ⟨x, ?_, hkind⟩
          rw [← heq, triggerOrFresh, hx, Option.getD_some]
      · exact ⟨x, hx, hkind⟩

theorem HasCell.of_declareTrigger {owner : Owner} {attr key kind : String} {cell : Cell}
    (h : (s.declareTrigger key kind).HasCell owner attr cell) : s.HasCell owner attr cell := by
  cases owner with
  | component name kind' =>
      obtain ⟨scope, c, hc, hcell⟩ := h
      rw [componentAt?, componentsAt_declareTrigger] at hc
      exact ⟨scope, c, hc, hcell⟩
  | trigger key' kind' =>
      obtain ⟨x, hx, hkind, hcell⟩ := h
      rw [trigger?_declareTrigger] at hx
      split at hx
      · next heq =>
          rw [triggerOrFresh] at hx
          cases hfound : s.trigger? key with
          | none =>
              rw [hfound, Option.getD_none] at hx
              rw [← Option.some.inj hx] at hcell
              cases hcell
          | some y =>
              rw [hfound, Option.getD_some] at hx
              rw [← Option.some.inj hx] at hkind hcell
              exact ⟨y, by rw [heq]; exact hfound, hkind, hcell⟩
      · exact ⟨x, hx, hkind, hcell⟩

theorem trigger?_setCell {owner : Owner} (hknown : s.Knows owner) {attr key : String} {cell : Cell}
    {x : Trigger} (h : (s.setCell owner attr cell).trigger? key = some x) :
    ∃ y, s.trigger? key = some y ∧ y.key = x.key ∧ y.kind = x.kind := by
  cases owner with
  | component name kind =>
      obtain ⟨g, hg, heq⟩ := s.trigger?_changeComponent name key (·.setCell attr cell)
      rw [setCell, heq] at h
      obtain ⟨y, hy, rfl⟩ := Option.map_eq_some_iff.1 h
      exact ⟨y, hy, (hg y).1.symm, (hg y).2.1.symm⟩
  | trigger key' kind =>
      obtain ⟨y, hy, hkind⟩ := hknown
      rw [setCell, trigger?_changeTrigger] at h
      split at h
      · next heq =>
          rw [triggerOrFresh, hy, Option.getD_some] at h
          rw [← Option.some.inj h, heq]
          exact ⟨y, hy, rfl, rfl⟩
      · exact ⟨x, h, rfl, rfl⟩

end Instrument.Store
