import Instrument.Proofs.Registry

namespace Instrument

/-- The entry of a component: it has the kind and the scope of the component. Its key is the component's
where the scope has one. -/
structure NameInfo.DescribesComponent (info : NameInfo) (c : Component) : Prop where
  kind_eq : c.kind = info.kind
  scope_eq : c.scope = info.scope
  key_eq : c.key = info.scope.keyFor info.key

/-- The entry of a variable: it has the scope and the key of the variable. -/
structure NameInfo.DescribesVariable (info : NameInfo) (v : Variable) : Prop where
  kind_eq : info.kind = variableKind
  scope_eq : v.scope = info.scope
  key_eq : v.key = info.key

/-- The operations that register a name with an entry. A component is registered with the key that is given
for it, a variable with the key that its scope has. -/
inductive Operation.Enters (name : String) (info : NameInfo) : Operation → Prop
  | component {scope : Datum} {attributes : List (String × Datum)}
      (hscope : ScopeKind.read scope = .ok info.scope) (hkind : info.isVariable = false) :
      Enters name info (.addComponent info.kind name scope info.key attributes)
  | variable {d scope lower upper : Datum} {key : Option String} {line : Option Int}
      (hscope : ScopeKind.read scope = .ok info.scope) (hkind : info.isVariable = true)
      (hkey : info.key = info.scope.keyFor key) :
      Enters name info (.addVariable name d scope key lower upper line)

namespace Store

/-- Operations that all are proper, and none of which fails. -/
def Succeeds : Store → List Operation → Prop
  | _, [] => True
  | s, op :: rest =>
    op.isProper = true ∧ (∃ answer, (op.run s).answer = .ok answer) ∧ Succeeds (op.run s).store rest

variable {s : Store} {ops : List Operation} {op : Operation} {name : String} {info : NameInfo}

theorem Succeeds.reached (h : Succeeds s ops) (hs : s.Reached) : (s.runAll ops).Reached := by
  induction ops generalizing s with
  | nil => exact hs
  | cons op rest ih =>
      obtain ⟨hop, ⟨answer, hanswer⟩, hrest⟩ := h
      exact ih hrest (.next op hs hop hanswer)

theorem entered_of_changes {t : Store} (hop : op.isProper = true) (h : op.Changes s t)
    (hinfo : t.nameInfo? name = some info) :
    s.nameInfo? name = some info ∨ s.nameInfo? name = none ∧ op.Enters name info := by
  cases h with
  | clears => cases hinfo
  | keeps hkeeps => exact .inl ((hkeeps.nameInfo?_eq name).symm.trans hinfo)
  | @adds kind _ _ key _ sc _ _ hscope _ hfree _ hreplaces =>
      rw [hreplaces.nameInfo?_eq] at hinfo
      split at hinfo
      · next hname =>
          subst hname
          obtain rfl := Option.some.inj hinfo
          have hkind : (⟨sc, kind, key⟩ : NameInfo).isVariable = false := by
            simpa [NameInfo.isVariable, Operation.isProper] using hop
          exact .inr ⟨hfree, .component hscope hkind⟩
      · exact .inl hinfo
  | declares hscope hkey hfree _ hreplaces =>
      rw [hreplaces.nameInfo?_eq] at hinfo
      split at hinfo
      · next hname =>
          subst hname
          obtain rfl := Option.some.inj hinfo
          obtain hfree | hsame := hfree
          · exact .inr ⟨hfree, .variable hscope rfl (ScopeKind.keyFor_eq_home hkey).symm⟩
          · exact .inl hsame
      · exact .inl hinfo
  | takes _ _ hreplaces =>
      rw [hreplaces.nameInfo?_eq] at hinfo
      split at hinfo
      · cases hinfo
      · exact .inl hinfo

/-- One of some operations enters a name that was free before, and the entry stays as it is from then on. -/
def Entered (s : Store) (ops : List Operation) (name : String) (info : NameInfo) : Prop :=
  ∃ before op after, ops = before ++ op :: after ∧ (s.runAll before).nameInfo? name = none ∧
    op.Enters name info ∧
    ∀ later, later <+: after → (s.runAll (before ++ op :: later)).nameInfo? name = some info

theorem entered_of_runAll (h : Succeeds s ops) (hinfo : (s.runAll ops).nameInfo? name = some info) :
    (∀ later, later <+: ops → (s.runAll later).nameInfo? name = some info) ∨ Entered s ops name info := by
  induction ops generalizing s with
  | nil =>
      left
      intro later hlater
      rw [List.prefix_nil.1 hlater]
      exact hinfo
  | cons op rest ih =>
      obtain ⟨hop, ⟨answer, hanswer⟩, hrest⟩ := h
      obtain hkept | ⟨before, entering, after, hsplit, hfree, henters, hkept⟩ := ih hrest hinfo
      · -- The entry is there after the first operation and stays, so that only this one can have entered it.
        obtain hold | ⟨hfree, henters⟩ := entered_of_changes hop (Operation.changes_of_ok hanswer)
          (hkept [] List.nil_prefix)
        · left
          intro later hlater
          obtain rfl | ⟨more, rfl, hmore⟩ := List.prefix_cons_iff.1 hlater
          · exact hold
          · exact hkept more hmore
        · exact .inr ⟨[], op, rest, rfl, hfree, henters, hkept⟩
      · exact .inr ⟨op :: before, entering, after, by rw [hsplit]; rfl, hfree, henters, hkept⟩

theorem Coherent.describesComponent (hs : s.Coherent) {c : Component} (hinfo : s.nameInfo? name = some info)
    (hc : s.component? name = some c) : info.DescribesComponent c := by
  rw [component?_eq, Option.bind_eq_some_iff] at hc
  obtain ⟨i, hi, hc⟩ := hc
  obtain rfl := Option.some.inj (((componentInfo?_eq_some s name).1 hi).1.symm.trans hinfo)
  have hfits := hs.component_fits hc
  refine ⟨hfits.kind_eq, hfits.scope_eq.trans ScopeKind.ofHome_home, ?_⟩
  rw [hfits.key_eq]
  cases hscope : i.scope with
  | global => rw [NameInfo.home, hscope]; rfl
  | trigger => exact (hs.key_eq hinfo hscope).symm

theorem Entered.key_eq (h : Entered s ops name info) (hkind : info.isVariable = true) :
    info.key = info.scope.keyFor info.key := by
  obtain ⟨before, op, after, -, -, henters, -⟩ := h
  cases henters with
  | component _ hother =>
      rw [hother] at hkind
      cases hkind
  | «variable» _ _ hkey =>
      rw [hkey]
      cases info.scope <;> rfl

theorem Coherent.describesVariable (hs : s.Coherent) {v : Variable} (hinfo : s.nameInfo? name = some info)
    (hkey : info.key = info.scope.keyFor info.key) (hv : s.findVariable? name = some v) :
    info.DescribesVariable v := by
  rw [findVariable?_eq, Option.bind_eq_some_iff] at hv
  obtain ⟨i, hi, hv⟩ := hv
  obtain ⟨hregistered, hkind⟩ := (variableInfo?_eq_some s name).1 hi
  obtain rfl := Option.some.inj (hregistered.symm.trans hinfo)
  have hfits := hs.variable_fits hv
  refine ⟨by simpa [NameInfo.isVariable] using hkind, hfits.scope_eq.trans ScopeKind.ofHome_home, ?_⟩
  rw [hfits.key_eq, NameInfo.home]
  cases hscope : i.scope with
  | global =>
      rw [hkey, hscope]
      rfl
  | trigger =>
      have hhome := hs.key_eq hinfo hscope
      rw [NameInfo.home, hscope] at hhome
      exact hhome.symm

end Store

theorem NameInfo.DescribesComponent.key_eq_iff {info : NameInfo} {c : Component}
    (h : info.DescribesComponent c) : c.key = info.key ↔ info.scope = .trigger ∨ info.key = none := by
  rw [h.key_eq]
  cases info.scope with
  | global => simp [ScopeKind.keyFor, eq_comm]
  | trigger => simp [ScopeKind.keyFor]

namespace Store

/-- After operations none of which fails, an entry tells the kind and the scope of the one entity that is
stored under its name. A variable has the key of its entry as well. A component has the key that goes with
its scope, while its entry has the one that was given when the component was added. -/
theorem entry_describes_stored {ops : List Operation} {name : String} {info : NameInfo}
    (hops : Succeeds empty ops) (hinfo : (empty.runAll ops).nameInfo? name = some info) :
    let s := empty.runAll ops
    (info.isVariable = true → ∃ v, s.findVariable? name = some v ∧ info.DescribesVariable v) ∧
    (info.isVariable = false → ∃ c, s.component? name = some c ∧ info.DescribesComponent c ∧
      (c.key = info.key ↔ info.scope = .trigger ∨ info.key = none)) ∧
    (∀ place, s.Holds name place ↔ place = info.place) ∧
    Entered empty ops name info := by
  intro s
  have hs : s.Coherent := (hops.reached .fresh).coherent
  have hentered : Entered empty ops name info := by
    refine (entered_of_runAll hops hinfo).resolve_left fun hkept => ?_
    cases hkept [] List.nil_prefix
  refine ⟨?_, ?_, ?_, hentered⟩
  · intro hkind
    obtain ⟨v, hv⟩ := (hs.findVariable?_isSome_iff name).2 ⟨info, hinfo, hkind⟩
    exact ⟨v, hv, hs.describesVariable hinfo (hentered.key_eq hkind) hv⟩
  · intro hkind
    obtain ⟨c, hc⟩ := (hs.component?_isSome_iff name).2 ⟨info, hinfo, hkind⟩
    have hdescribes := hs.describesComponent hinfo hc
    exact ⟨c, hc, hdescribes, hdescribes.key_eq_iff⟩
  · intro place
    constructor
    · exact hs.place_eq hinfo
    · rintro rfl
      exact (hs.holds_iff name info.place).2 ⟨info, hinfo, rfl⟩

def keyed : List Operation :=
  [.addVariable "base" (.number (.int 1)) (.text "global") (some "note_c4") .null .null none,
    .addComponent "lfo" "wobble" (.text "global") (some "note_c4") []]

theorem succeeds_keyed : Succeeds empty keyed :=
  ⟨rfl, ⟨true, rfl⟩, rfl, ⟨true, rfl⟩, trivial⟩

theorem entry_describes_stored_keyed :
    Succeeds empty keyed ∧
      (empty.runAll keyed).nameInfo? "wobble" = some ⟨.global, "lfo", some "note_c4"⟩ ∧
      ∃ c, (empty.runAll keyed).component? "wobble" = some c ∧ c.key = none := by
  have hinfo : (empty.runAll keyed).nameInfo? "wobble" = some ⟨.global, "lfo", some "note_c4"⟩ := rfl
  obtain ⟨-, hcomponent, -⟩ := entry_describes_stored succeeds_keyed hinfo
  obtain ⟨c, hc, hdescribes, -⟩ := hcomponent rfl
  exact ⟨succeeds_keyed, hinfo, c, hc, hdescribes.key_eq⟩

/-- An entry does not always have the key of the component under its name. -/
theorem entry_key_not_component_key :
    ¬∀ (ops : List Operation) (name : String) (info : NameInfo) (c : Component), Succeeds empty ops →
      (empty.runAll ops).nameInfo? name = some info → (empty.runAll ops).component? name = some c →
        info.scope = c.scope ∧ info.kind = c.kind ∧ info.key = c.key := by
  intro hagree
  obtain ⟨-, -, hkey⟩ := hagree keyed "wobble" _ _ succeeds_keyed rfl rfl
  cases hkey

end Store

end Instrument
