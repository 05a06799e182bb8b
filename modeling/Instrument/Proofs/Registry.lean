import Instrument.Proofs.Changes

namespace Instrument

def ScopeKind.ofHome : Option String → ScopeKind
  | none => .global
  | some _ => .trigger

structure Component.Fits (c : Component) (scope : Option String) (kind name : String) : Prop where
  name_eq : c.name = name
  kind_eq : c.kind = kind
  scope_eq : c.scope = .ofHome scope
  key_eq : c.key = scope

structure Variable.Fits (v : Variable) (scope : Option String) (name : String) : Prop where
  name_eq : v.name = name
  scope_eq : v.scope = .ofHome scope
  key_eq : v.key = scope

namespace ScopeKind

variable {scope : ScopeKind} {key : Option String}

theorem ofHome_home : ofHome (scope.home key) = scope := by
  cases scope <;> rfl

theorem home_ofHome (home : Option String) : (ofHome home).home home = home := by
  cases home <;> rfl

theorem keyFor_ofHome (home : Option String) : (ofHome home).keyFor home = home := by
  cases home <;> rfl

end ScopeKind

namespace Store

def Holds (s : Store) (name : String) : Place → Prop
  | .componentTable scope kind => ∃ c, s.componentAt? scope kind name = some c
  | .variableTable scope => ∃ v, s.variableAt? scope name = some v

/-- Names are registered for the tables that hold them, and entities fit their places. -/
structure Coherent (s : Store) : Prop where
  holds_iff : ∀ name place, s.Holds name place ↔ ∃ info, s.nameInfo? name = some info ∧ info.place = place
  component_fits : ∀ {scope kind name c}, s.componentAt? scope kind name = some c → c.Fits scope kind name
  variable_fits : ∀ {scope name v}, s.variableAt? scope name = some v → v.Fits scope name
  key_eq : ∀ {name info}, s.nameInfo? name = some info → info.scope = .trigger → info.key = info.home

theorem coherent_empty : Coherent .empty where
  holds_iff name place := by
    constructor
    · intro h
      cases place with
      | componentTable scope kind =>
          obtain ⟨c, hc⟩ := h
          cases scope <;> simp [componentAt?, componentsAt, empty, trigger?] at hc
      | variableTable scope =>
          obtain ⟨v, hv⟩ := h
          cases scope <;> simp [variableAt?, variablesAt, empty] at hv
    · rintro ⟨info, h, -⟩
      simp [nameInfo?, empty] at h
  component_fits {scope _ _ _} h := by
    cases scope <;> simp [componentAt?, componentsAt, empty, trigger?] at h
  variable_fits {scope _ _} h := by
    cases scope <;> simp [variableAt?, variablesAt, empty] at h
  key_eq h := by simp [nameInfo?, empty] at h

variable {s t : Store}

theorem Keeps.coherent (h : Keeps s t) (hs : s.Coherent) : t.Coherent where
  holds_iff name place := by
    rw [h.nameInfo?_eq, ← hs.holds_iff]
    cases place with
    | componentTable scope kind =>
        obtain ⟨f, -, hf⟩ := h.componentAt?_eq scope kind name
        simp only [Holds, hf, ← Option.isSome_iff_exists, Option.isSome_map]
    | variableTable scope => simp [Holds, h.variableAt?_eq]
  component_fits {scope kind name c} hc := by
    obtain ⟨f, hlabel, hf⟩ := h.componentAt?_eq scope kind name
    rw [hf] at hc
    obtain ⟨d, hd, rfl⟩ := Option.map_eq_some_iff.mp hc
    have hfits := hs.component_fits hd
    obtain ⟨hname, hkind, hscope, hkey⟩ := hlabel d
    exact ⟨hname.trans hfits.name_eq, hkind.trans hfits.kind_eq, hscope.trans hfits.scope_eq,
      hkey.trans hfits.key_eq⟩
  variable_fits hv := hs.variable_fits (by rwa [h.variableAt?_eq] at hv)
  key_eq hinfo := hs.key_eq (by rwa [h.nameInfo?_eq] at hinfo)

theorem Replaces.holds_iff_of_ne {name other : String} {place p : Place} {info : Option NameInfo}
    {c : Option Component} {v : Option Variable} (h : Replaces name place info c v s t)
    (hne : ¬(place = p ∧ other = name)) : t.Holds other p ↔ s.Holds other p := by
  cases p with
  | componentTable scope kind => simp only [Holds, h.componentAt?_eq, if_neg hne]
  | variableTable scope => simp only [Holds, h.variableAt?_eq, if_neg hne]

/-- The registry and the tables agree after something is replaced in both, if they agree about that. -/
theorem Coherent.replaces (hs : s.Coherent) {name : String} {place : Place} {info : Option NameInfo}
    {c : Option Component} {v : Option Variable} (h : Replaces name place info c v s t)
    (hbefore : ∀ i, s.nameInfo? name = some i → i.place = place)
    (hafter : ∀ i, info = some i → i.place = place ∧ (i.scope = .trigger → i.key = i.home))
    (hheld : t.Holds name place ↔ ∃ i, info = some i)
    (hcomponent : ∀ scope kind x, place = .componentTable scope kind → c = some x → x.Fits scope kind name)
    (hvariable : ∀ scope x, place = .variableTable scope → v = some x → x.Fits scope name) :
    t.Coherent := by
  refine ⟨?_, ?_, ?_, ?_⟩
  · intro other p
    rw [h.nameInfo?_eq]
    by_cases hother : other = name
    · subst hother
      rw [if_pos rfl]
      by_cases hplace : place = p
      · subst hplace
        rw [hheld]
        exact ⟨fun ⟨i, hi⟩ => ⟨i, hi, (hafter i hi).1⟩, fun ⟨i, hi, _⟩ => ⟨i, hi⟩⟩
      · -- Neither entry of the name is for another table.
        rw [h.holds_iff_of_ne (fun heq => hplace heq.1), hs.holds_iff]
        constructor
        · rintro ⟨i, hi, rfl⟩
          exact absurd (hbefore i hi).symm hplace
        · rintro ⟨i, hi, rfl⟩
          exact absurd (hafter i hi).1.symm hplace
    · rw [if_neg hother, h.holds_iff_of_ne (fun heq => hother heq.2), hs.holds_iff]
  · intro scope kind other x hx
    rw [h.componentAt?_eq] at hx
    split at hx
    · next heq =>
        rw [heq.2]
        exact hcomponent scope kind x heq.1 hx
    · exact hs.component_fits hx
  · intro scope other x hx
    rw [h.variableAt?_eq] at hx
    split at hx
    · next heq =>
        rw [heq.2]
        exact hvariable scope x heq.1 hx
    · exact hs.variable_fits hx
  · intro other i hi
    rw [h.nameInfo?_eq] at hi
    split at hi
    · exact (hafter i hi).2
    · exact hs.key_eq hi

theorem place_component {scope : ScopeKind} {kind : String} {key : Option String}
    (h : kind ≠ variableKind) :
    (⟨scope, kind, key⟩ : NameInfo).place = .componentTable (scope.home key) kind := by
  simp [NameInfo.place, NameInfo.isVariable, NameInfo.home, h]

theorem place_variable {scope : ScopeKind} {key : Option String} :
    (⟨scope, variableKind, scope.home key⟩ : NameInfo).place = .variableTable (scope.home key) := by
  simp [NameInfo.place, NameInfo.isVariable, NameInfo.home, ScopeKind.home_home]

theorem Coherent.adds (hs : s.Coherent) {kind name : String} {scope : ScopeKind} {key : Option String}
    {cells : Table Cell} (hkind : kind ≠ variableKind) (hkey : scope.lacksKey key = false)
    (hfree : s.nameInfo? name = none)
    (h : Replaces name (.componentTable (scope.home key) kind) (some ⟨scope, kind, key⟩)
      (some { kind, name, scope, key := scope.home key, attributes := cells }) none s t) :
    t.Coherent := by
  refine hs.replaces h ?_ ?_ ?_ ?_ ?_
  · intro i hi
    cases hfree.symm.trans hi
  · rintro i ⟨⟩
    exact ⟨place_component hkind, fun (htrigger : scope = .trigger) => by
      subst htrigger
      exact ScopeKind.keyFor_eq_home hkey⟩
  · simp [Holds, h.componentAt?_eq]
  · rintro _ _ _ ⟨⟩ ⟨⟩
    exact ⟨rfl, rfl, ScopeKind.ofHome_home.symm, rfl⟩
  · rintro _ _ ⟨⟩

theorem Coherent.declares (hs : s.Coherent) {name : String} {scope : ScopeKind} {key : Option String}
    {value : Option Value} {lower upper : Datum} {line : Option Int}
    (hfree : s.nameInfo? name = none ∨ s.nameInfo? name = some ⟨scope, variableKind, scope.home key⟩)
    (h : Replaces name (.variableTable (scope.home key)) (some ⟨scope, variableKind, scope.home key⟩) none
      (some ⟨name, value, scope, scope.home key, lower, upper, line⟩) s t) : t.Coherent := by
  refine hs.replaces h ?_ ?_ ?_ ?_ ?_
  · intro i hi
    obtain hfree | hsame := hfree
    · cases hfree.symm.trans hi
    · obtain rfl := Option.some.inj (hsame.symm.trans hi)
      exact place_variable
  · rintro i ⟨⟩
    exact ⟨place_variable, fun _ => (scope.home_home key).symm⟩
  · simp [Holds, h.variableAt?_eq]
  · rintro _ _ _ ⟨⟩
  · rintro _ _ ⟨⟩ ⟨⟩
    exact ⟨rfl, ScopeKind.ofHome_home.symm, rfl⟩

theorem Coherent.takes (hs : s.Coherent) {name : String} {info : NameInfo}
    (hinfo : s.nameInfo? name = some info) (h : Replaces name info.place none none none s t) :
    t.Coherent := by
  refine hs.replaces h ?_ (fun _ hi => nomatch hi) ?_ (fun _ _ _ _ hx => nomatch hx)
    (fun _ _ _ hx => nomatch hx)
  · intro i hi
    rw [Option.some.inj (hinfo.symm.trans hi)]
  · cases hplace : info.place <;> simp [Holds, h.componentAt?_eq, h.variableAt?_eq, hplace]

theorem Coherent.addComponent (hs : s.Coherent) {kind name : String} {scope : ScopeKind}
    {key : Option String} {attributes : List (String × Datum)} {answer : Bool}
    (hkind : kind ≠ variableKind)
    (h : (s.addComponent kind name scope key attributes).answer = .ok answer) :
    (s.addComponent kind name scope key attributes).store.Coherent := by
  obtain hstore | ⟨hkey, hfree, cells, -, hreplaces⟩ := replaces_addComponent h
  · rw [hstore]
    exact hs
  · exact hs.adds hkind hkey hfree hreplaces

theorem Coherent.addVariable (hs : s.Coherent) {name : String} {d : Datum} {scope : ScopeKind}
    {key : Option String} {lower upper : Datum} {line : Option Int} {answer : Bool}
    (h : (s.addVariable name d scope key lower upper line).answer = .ok answer) :
    (s.addVariable name d scope key lower upper line).store.Coherent := by
  obtain hstore | ⟨-, hfree, value, -, hreplaces⟩ := replaces_addVariable h
  · rw [hstore]
    exact hs
  · exact hs.declares hfree hreplaces

theorem Coherent.place_eq (hs : s.Coherent) {name : String} {info : NameInfo} {place : Place}
    (hinfo : s.nameInfo? name = some info) (h : s.Holds name place) : place = info.place := by
  obtain ⟨i, hi, rfl⟩ := (hs.holds_iff name place).mp h
  rw [Option.some.inj (hi.symm.trans hinfo)]

end Store

def Operation.isProper : Operation → Bool
  | addComponent kind _ _ _ _ => kind != variableKind
  | _ => true

namespace Store

/-- The stores that operations lead to, from the empty one and without a failure. -/
inductive Reached : Store → Prop
  | fresh : Reached .empty
  | next {s : Store} (op : Operation) {answer : Bool} (hs : Reached s) (hop : op.isProper = true)
      (h : (op.run s).answer = .ok answer) : Reached (op.run s).store

theorem Coherent.of_changes {s t : Store} (hs : s.Coherent) {op : Operation} (hop : op.isProper = true)
    (h : op.Changes s t) : t.Coherent := by
  cases h with
  | clears => exact coherent_empty
  | keeps hkeeps => exact hkeeps.coherent hs
  | adds _ hkey hfree _ hreplaces =>
      exact hs.adds (by simpa [Operation.isProper] using hop) hkey hfree hreplaces
  | declares _ _ hfree _ hreplaces => exact hs.declares hfree hreplaces
  | takes _ hinfo hreplaces => exact hs.takes hinfo hreplaces

theorem Reached.coherent {s : Store} (h : s.Reached) : s.Coherent := by
  induction h with
  | fresh => exact coherent_empty
  | next _ _ hop hok ih => exact ih.of_changes hop (Operation.changes_of_ok hok)

def Registers (s : Store) (name kind : String) (scope : Option String) : Prop :=
  ∃ info, s.nameInfo? name = some info ∧ info.kind = kind ∧ info.scope = .ofHome scope ∧
    ∀ key, scope = some key → info.key = some key

theorem Coherent.registers_iff {s : Store} (hs : s.Coherent) {name kind : String}
    {scope : Option String} :
    s.Registers name kind scope ↔
      ∃ info, s.nameInfo? name = some info ∧ info.kind = kind ∧ info.home = scope := by
  constructor
  · rintro ⟨info, hinfo, hkind, hscope, hkey⟩
    refine ⟨info, hinfo, hkind, ?_⟩
    cases scope with
    | none => simp [NameInfo.home, hscope, ScopeKind.ofHome, ScopeKind.home]
    | some key => simp [NameInfo.home, hscope, hkey key rfl, ScopeKind.ofHome, ScopeKind.home]
  · rintro ⟨info, hinfo, hkind, rfl⟩
    refine ⟨info, hinfo, hkind, ScopeKind.ofHome_home.symm, ?_⟩
    intro key hkey
    have hscope : info.scope = .trigger := by
      cases hs : info.scope with
      | global => simp [NameInfo.home, hs, ScopeKind.home] at hkey
      | trigger => rfl
    rw [hs.key_eq hinfo hscope, hkey]

theorem Coherent.components_iff {s : Store} (hs : s.Coherent) {name kind : String}
    {scope : Option String} :
    s.Registers name kind scope ∧ kind ≠ variableKind ↔
      ∃ c, s.componentAt? scope kind name = some c := by
  have hholds := hs.holds_iff name (.componentTable scope kind)
  rw [hs.registers_iff]
  refine Iff.trans ?_ hholds.symm
  constructor
  · rintro ⟨⟨info, hinfo, rfl, rfl⟩, hkind⟩
    exact ⟨info, hinfo, by simp [NameInfo.place, NameInfo.isVariable, hkind]⟩
  · rintro ⟨info, hinfo, hplace⟩
    rw [NameInfo.place] at hplace
    split at hplace
    · simp at hplace
    · next hkind =>
        simp only [Place.componentTable.injEq] at hplace
        refine ⟨⟨info, hinfo, hplace.2, hplace.1⟩, ?_⟩
        rw [← hplace.2]
        simpa [NameInfo.isVariable] using hkind

theorem Coherent.variables_iff {s : Store} (hs : s.Coherent) {name : String}
    {scope : Option String} :
    s.Registers name variableKind scope ↔ ∃ v, s.variableAt? scope name = some v := by
  have hholds := hs.holds_iff name (.variableTable scope)
  rw [hs.registers_iff]
  refine Iff.trans ?_ hholds.symm
  constructor
  · rintro ⟨info, hinfo, hkind, rfl⟩
    exact ⟨info, hinfo, by simp [NameInfo.place, NameInfo.isVariable, hkind]⟩
  · rintro ⟨info, hinfo, hplace⟩
    rw [NameInfo.place] at hplace
    split at hplace
    · next hkind =>
        simp only [Place.variableTable.injEq] at hplace
        exact ⟨info, hinfo, by simpa [NameInfo.isVariable] using hkind, hplace⟩
    · simp at hplace

theorem Coherent.component?_isSome_iff {s : Store} (hs : s.Coherent) (name : String) :
    (∃ c, s.component? name = some c) ↔
      ∃ info, s.nameInfo? name = some info ∧ info.isVariable = false := by
  simp only [component?_eq, Option.bind_eq_some_iff, componentInfo?_eq_some]
  constructor
  · rintro ⟨c, info, hinfo, -⟩
    exact ⟨info, hinfo⟩
  · rintro ⟨info, hinfo, hkind⟩
    obtain ⟨c, hc⟩ := (hs.holds_iff name (.componentTable info.home info.kind)).mpr
      ⟨info, hinfo, by simp [NameInfo.place, hkind]⟩
    exact ⟨c, info, ⟨hinfo, hkind⟩, hc⟩

theorem Coherent.findVariable?_isSome_iff {s : Store} (hs : s.Coherent) (name : String) :
    (∃ v, s.findVariable? name = some v) ↔
      ∃ info, s.nameInfo? name = some info ∧ info.isVariable = true := by
  simp only [findVariable?_eq, Option.bind_eq_some_iff, variableInfo?_eq_some]
  constructor
  · rintro ⟨v, info, hinfo, -⟩
    exact ⟨info, hinfo⟩
  · rintro ⟨info, hinfo, hkind⟩
    obtain ⟨v, hv⟩ := (hs.holds_iff name (.variableTable info.home)).mpr
      ⟨info, hinfo, by simp [NameInfo.place, hkind]⟩
    exact ⟨v, info, ⟨hinfo, hkind⟩, hv⟩

/-- After any run of operations the registry and the tables agree: a name is registered with a kind
and a scope exactly if that table holds something under it, which carries this name, kind and scope.
No name occurs in two tables, and none is left out of the registry, so that looking up a name finds
what is registered under it. -/
theorem registry_iff_stored {s : Store} (h : s.Reached) :
    (∀ name kind scope, s.Registers name kind scope ∧ kind ≠ variableKind ↔
      ∃ c, s.componentAt? scope kind name = some c) ∧
    (∀ name kind scope c, s.componentAt? scope kind name = some c → c.Fits scope kind name) ∧
    (∀ name scope, s.Registers name variableKind scope ↔ ∃ v, s.variableAt? scope name = some v) ∧
    (∀ name place other, s.Holds name place → s.Holds name other → place = other) ∧
    (∀ name place, s.Holds name place → s.isRegistered name = true) ∧
    (∀ name, (∃ c, s.component? name = some c) ↔
      ∃ info, s.nameInfo? name = some info ∧ info.isVariable = false) ∧
    (∀ name, (∃ v, s.findVariable? name = some v) ↔
      ∃ info, s.nameInfo? name = some info ∧ info.isVariable = true) := by
  have hs := h.coherent
  refine ⟨fun _ _ _ => hs.components_iff, fun _ _ _ _ => hs.component_fits,
    fun _ _ => hs.variables_iff, ?_, ?_, hs.component?_isSome_iff, hs.findVariable?_isSome_iff⟩
  · intro name place other hplace hother
    obtain ⟨info, hinfo, rfl⟩ := (hs.holds_iff name place).mp hplace
    exact (hs.place_eq hinfo hother).symm
  · intro name place hplace
    obtain ⟨info, hinfo, -⟩ := (hs.holds_iff name place).mp hplace
    exact Option.isSome_iff_exists.mpr ⟨info, hinfo⟩

def freedAndTaken : List Operation :=
  [.addComponent "lfo" "wobble" (.text "trigger") (some "note_c4") [],
    .addVariable "wobble" (.number (.int 3)) (.text "global") none .null .null none,
    .removeComponent "wobble",
    .setTriggerAttribute "note_c4" "pitch" (.number (.int 7)),
    .addComponent "lfo" "wobble" (.text "global") (some "note_c4") [("rate", .number (.int 5))]]

theorem reached_freedAndTaken : (empty.runAll freedAndTaken).Reached :=
  .next (.addComponent ..) (.next (.setTriggerAttribute ..) (.next (.removeComponent ..)
    (.next (.addVariable ..) (.next (.addComponent ..) .fresh rfl rfl) rfl rfl) rfl rfl) rfl rfl) rfl rfl

theorem stored_freedAndTaken :
    (empty.runAll freedAndTaken).Reached ∧
      (∃ c, (empty.runAll freedAndTaken).componentAt? none "lfo" "wobble" = some c) ∧
      ¬ (empty.runAll freedAndTaken).Holds "wobble" (.componentTable (some "note_c4") "lfo") := by
  obtain ⟨hcomponents, -, -, hunique, -⟩ := registry_iff_stored reached_freedAndTaken
  have hglobal := (hcomponents "wobble" "lfo" none).mp
    ⟨⟨⟨.global, "lfo", some "note_c4"⟩, rfl, rfl, rfl, by simp⟩, by decide⟩
  refine ⟨reached_freedAndTaken, hglobal, ?_⟩
  intro hlocal
  have hplace := hunique "wobble" (.componentTable none "lfo") _ hglobal hlocal
  simp at hplace

end Store

end Instrument
