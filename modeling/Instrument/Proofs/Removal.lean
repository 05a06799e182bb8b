import Instrument.Proofs.Anchoring

namespace Instrument

def Operation.gives (name : String) : Operation → Bool
  | addVariable other _ _ _ _ _ _ => other == name
  | setOverride other _ _ => other == name
  | _ => false

namespace Store

variable {s t u : Store} {name : String}

theorem override?_changeTables (s : Store) (info : NameInfo) (f : ComponentTables → ComponentTables)
    (name key : String) : (s.changeTables info f).override? name key = s.override? name key := by
  rw [changeTables]
  cases info.scope with
  | global => rfl
  | trigger =>
      rw [override?, trigger?, Table.get?_modify, override?, trigger?]
      split
      · next heq =>
          rw [heq]
          cases s.triggers.get? (info.key.getD "") <;> rfl
      · rfl

theorem override?_withoutVariable (s : Store) (info : NameInfo) (other name key : String) :
    (s.withoutVariable info other).override? name key = s.override? name key := by
  rw [withoutVariable]
  cases info.scope <;> rfl

theorem override?_updateTrigger (s : Store) (key attr : String) (f : Cell → Except DatumError Cell)
    (name key' : String) :
    (s.updateTrigger key attr f).store.override? name key' = s.override? name key' :=
  have hconfined : Confined none (some (.trigger key "")) s (s.updateTrigger key attr f).store :=
    s.confined_updateTrigger key "" attr f
  hconfined.override?_eq name key'

theorem override?_of_leavesTrace {op : Operation} (h : op.LeavesTrace s t) (name key : String) :
    t.override? name key = s.override? name key := by
  cases h with
  | named => rfl
  | declared => rfl
  | overridden => exact (s.sameVariables_declareTrigger _ _).override?_eq name key
  | given => exact (s.sameVariables_declareTrigger _ _).override?_eq name key

theorem override?_addComponent (s : Store) (kind other : String) (scope : Datum) (home : Option String)
    (attributes : List (String × Datum)) (name key : String) :
    ((Operation.addComponent kind other scope home attributes).run s).store.override? name key =
      s.override? name key := by
  by_cases h : ((Operation.addComponent kind other scope home attributes).run s).answer = .ok true
  · obtain ⟨sc, -, hrun⟩ := inScope_of_ok h
    simp only [Operation.run] at h ⊢
    rw [hrun] at h ⊢
    obtain ⟨-, -, hstore⟩ | ⟨-, -, -, cells, -, hstore⟩ := addComponent_cases h
    · rw [hstore]
    · rw [hstore, override?_placeComponent]
      rfl
  · obtain hkept | htrace := Operation.kept_or_leavesTrace h
    · rw [hkept]
    · exact override?_of_leavesTrace htrace name key

theorem override?_addVariable (s : Store) (other : String) (d scope : Datum) (home : Option String)
    (lower upper : Datum) (line : Option Int) (name key : String) :
    ((Operation.addVariable other d scope home lower upper line).run s).store.override? name key =
      s.override? name key := by
  by_cases h : ((Operation.addVariable other d scope home lower upper line).run s).answer = .ok true
  · obtain ⟨sc, -, hrun⟩ := inScope_of_ok h
    simp only [Operation.run] at h ⊢
    rw [hrun] at h ⊢
    obtain ⟨-, -, hstore⟩ | ⟨-, -, value, registered, -, hregistered, hstore⟩ := addVariable_cases h
    · rw [hstore]
    · rw [hstore, override?_placeVariable]
      rcases hregistered with ⟨rfl, -⟩ | ⟨rfl, -⟩ <;> rfl
  · obtain hkept | htrace := Operation.kept_or_leavesTrace h
    · rw [hkept]
    · exact override?_of_leavesTrace htrace name key

theorem override?_removeComponent (s : Store) (other name key : String) :
    (s.removeComponent other).store.override? name key = s.override? name key := by
  rw [removeComponent]
  cases s.componentInfo? other with
  | none => rfl
  | some info => exact override?_changeTables ..

theorem override?_removeVariable (s : Store) (other name key : String) :
    (s.removeVariable other).store.override? name key = s.override? name key := by
  rw [removeVariable_eq]
  cases s.variableInfo? other with
  | none => rfl
  | some info => exact override?_withoutVariable ..

theorem override?_of_run {op : Operation} (hop : op.gives name = true → (op.run s).answer ≠ .ok true)
    {key : String} {o : Option Value} (h : (op.run s).store.override? name key = some o) :
    s.override? name key = some o := by
  cases op with
  | reset => cases h
  | declareTrigger => rwa [Operation.run, Outcome.store_done,
      (s.sameVariables_declareTrigger _ _).override?_eq] at h
  | addComponent => rwa [override?_addComponent] at h
  | removeComponent => rwa [Operation.run, override?_removeComponent] at h
  | setComponentAttribute => rwa [Operation.run, updateComponentAttribute, override?_updateComponent] at h
  | setComponentModulation =>
      rwa [Operation.run, updateComponentModulation, override?_updateComponent] at h
  | addVariable => rwa [override?_addVariable] at h
  | removeVariable => rwa [Operation.run, override?_removeVariable] at h
  | setOverride other d key' =>
      cases hread : Value.ofDatum d with
      | ok value =>
          rw [Operation.run, Outcome.accepted, override?_setOverride_of_ok s other key' hread] at h
          split at h
          · next heq =>
              refine absurd ?_ (hop (by simp [Operation.gives, heq.2]))
              simp [Operation.run, Outcome.accepted, setOverride, hread, Except.map]
          · exact h
      | error e =>
          have hanswer : ((Operation.setOverride other d key').run s).answer ≠ .ok true := by
            simp [Operation.run, Outcome.accepted, setOverride, hread, Except.map]
          obtain hkept | htrace := Operation.kept_or_leavesTrace hanswer
          · rwa [hkept] at h
          · rwa [override?_of_leavesTrace htrace] at h
  | removeOverride other key' =>
      rw [Operation.run, override?_removeOverride] at h
      split at h
      · cases h
      · exact h
  | setTriggerAttribute =>
      rwa [Operation.run, Outcome.accepted, setTriggerAttribute, override?_updateTrigger] at h
  | setTriggerModulation =>
      rwa [Operation.run, Outcome.accepted, setTriggerModulation, override?_updateTrigger] at h

/-- A variable that is nowhere is nowhere after the change, and no trigger has a value for it that it
had not before. -/
structure Sheds (name : String) (s t : Store) : Prop where
  absent : (∀ scope, s.variableAt? scope name = none) → ∀ scope, t.variableAt? scope name = none
  override?_some : ∀ {key o}, t.override? name key = some o → s.override? name key = some o

theorem Sheds.refl (name : String) (s : Store) : Sheds name s s := ⟨id, id⟩

theorem Sheds.trans (h : Sheds name s t) (h' : Sheds name t u) : Sheds name s u :=
  ⟨fun habsent => h'.absent (h.absent habsent), fun ho => h.override?_some (h'.override?_some ho)⟩

theorem sheds_run {op : Operation} (hop : op.gives name = true → (op.run s).answer ≠ .ok true) :
    Sheds name s (op.run s).store where
  absent habsent scope := by
    have hkept (hloses : LosesOnly s (op.run s).store) :
        (op.run s).store.variableAt? scope name = none := by
      cases hv : (op.run s).store.variableAt? scope name with
      | none => rfl
      | some v => exact (hloses hv).1.symm.trans (habsent scope)
    by_cases hok : (op.run s).answer = .ok true
    · obtain ⟨other, _, _, _, _, _, _, _, _, rfl, -, hreplaces⟩ | hloses :=
        declares_or_losesOnly (Operation.changes_of_ok hok)
      · rw [hreplaces.variableAt?_eq, if_neg]
        · exact habsent scope
        · rintro ⟨-, rfl⟩
          exact hop (by simp [Operation.gives]) hok
      · exact hkept hloses
    · exact hkept (losesOnly_of_ne hok)
  override?_some := override?_of_run hop

/-- None of some operations gives a value to a variable: those that are to are refused, or fail. -/
def Spares (name : String) : Store → List Operation → Prop
  | _, [] => True
  | s, op :: rest =>
    (op.gives name = true → (op.run s).answer ≠ .ok true) ∧ Spares name (op.run s).store rest

theorem sheds_runAll {ops : List Operation} (h : Spares name s ops) : Sheds name s (s.runAll ops) := by
  induction ops generalizing s with
  | nil => exact .refl name s
  | cons op rest ih => exact (sheds_run h.1).trans (ih h.2)

theorem Anchored.absent_of_removed (hs : s.Anchored) (h : (s.removeVariable name).answer = .ok true)
    (scope : Option String) : (s.removeVariable name).store.variableAt? scope name = none := by
  rw [removeVariable_eq] at h ⊢
  cases hinfo : s.variableInfo? name with
  | none =>
      rw [hinfo] at h
      cases h
  | some info =>
      obtain ⟨hregistered, hkind⟩ := (variableInfo?_eq_some s name).mp hinfo
      simp only [Outcome.store_done]
      rw [variableAt?_unregister, variableAt?_withoutVariable]
      split
      · rfl
      · next hother =>
          cases hv : s.variableAt? scope name with
          | none => rfl
          | some v =>
              obtain ⟨i, hi, hplace⟩ := hs.registered hv
              obtain rfl := Option.some.inj (hregistered.symm.trans hi)
              simp only [NameInfo.place, hkind, if_true, Place.variableTable.injEq] at hplace
              exact absurd ⟨hplace.symm, rfl⟩ hother

theorem variableAt?_removeVariable_of_ne {other : String} (hne : other ≠ name) (s : Store)
    (scope : Option String) :
    (s.removeVariable name).store.variableAt? scope other = s.variableAt? scope other := by
  rw [removeVariable_eq]
  cases s.variableInfo? name with
  | none => rfl
  | some info =>
      simp only [Outcome.store_done]
      rw [variableAt?_unregister, variableAt?_withoutVariable, if_neg fun heq => hne heq.2]

theorem effective?_of_absent (habsent : ∀ scope, s.variableAt? scope name = none) {key : Option String}
    (hkey : ∀ k, key = some k → k ≠ "" → s.override? name k = none) : s.effective? name key = none := by
  have hglobal : s.given? none name = none := by rw [given?, habsent, Option.map_none]
  cases key with
  | none => rw [effective?_none, hglobal, Option.join_none]
  | some k =>
      by_cases hblank : k = ""
      · rw [hblank, effective?_blank, hglobal, Option.join_none]
      · have hgiven : s.given? (some k) name = none := by
          rw [given?, hkey k rfl hblank, habsent, Option.map_none, Option.or_none]
        rw [effective?_some hblank, hgiven, hglobal, Option.or_none, Option.join_none]

theorem resolveVariable_of_no_value {key : Option String} (h : s.effective? name key = none) :
    s.resolveVariable name key = pure none := by
  rw [resolveVariable, resolve_eq, h]

theorem resolveVariable_removeVariable {key : String} {o : Option Value} (hkey : key ≠ "")
    (ho : s.override? name key = some o) (other : String) :
    (s.removeVariable name).store.resolveVariable other (some key) = s.resolveVariable other (some key) := by
  refine resolve_congr ?_ [] other
  intro other
  by_cases hother : other = name
  · subst hother
    rw [effective?_of_override hkey ho, effective?_of_override hkey]
    rw [override?_removeVariable, ho]
  · have hgiven (home : Option String) :
        (s.removeVariable name).store.given? home other = s.given? home other := by
      cases home with
      | none => rw [given?, variableAt?_removeVariable_of_ne hother, given?]
      | some key' =>
          rw [given?, override?_removeVariable, variableAt?_removeVariable_of_ne hother, given?]
    rw [effective?_some hkey, effective?_some hkey, hgiven, hgiven]

/-- A variable that is taken out of a store has no value afterwards, in no scope, until it is declared
anew or a trigger is given a value for it. Only a trigger that had a value of its own for it keeps this
value, as long as it is not taken back; right after the removal all comes there to what it did before. -/
theorem removed_stays_removed {ops later : List Operation} {name : String}
    (h : ((empty.runAll ops).removeVariable name).answer = .ok true)
    (hlater : Spares name ((empty.runAll ops).removeVariable name).store later) :
    let s := empty.runAll ops
    let removed := (s.removeVariable name).store
    let t := removed.runAll later
    (∀ key, (∀ k, key = some k → k ≠ "" → t.override? name k = none) →
      t.resolveVariable name key = pure none) ∧
    (∀ k o, t.override? name k = some o → s.override? name k = some o ∧
      (k ≠ "" → t.effective? name (some k) = o)) ∧
    (∀ k o, s.override? name k = some o → k ≠ "" → ∀ other,
      removed.resolveVariable other (some k) = s.resolveVariable other (some k)) := by
  intro s removed t
  have hanchored : s.Anchored := anchored_empty.runAll ops
  have hsheds : Sheds name removed t := sheds_runAll hlater
  refine ⟨?_, ?_, ?_⟩
  · intro key hkey
    exact resolveVariable_of_no_value
      (effective?_of_absent (hsheds.absent (hanchored.absent_of_removed h)) hkey)
  · intro k o ho
    refine ⟨?_, fun hk => effective?_of_override hk ho⟩
    have hbefore := hsheds.override?_some ho
    rwa [override?_removeVariable] at hbefore
  · intro k o ho hk other
    exact resolveVariable_removeVariable hk ho other

def overridden : List Operation :=
  [.addVariable "base" (.number (.int 1)) (.text "global") none .null .null none,
    .setOverride "base" (.number (.int 5)) "note_c4"]

def unmoved : List Operation :=
  [.declareTrigger "note_d4" "", .addVariable "base" (.bool true) (.text "global") none .null .null none]

theorem spares_unmoved :
    Spares "base" ((empty.runAll overridden).removeVariable "base").store unmoved := by
  refine ⟨?_, ?_, trivial⟩
  · intro h
    cases h
  · intro _ h
    cases h

theorem removed_stays_removed_overridden :
    let removed := ((empty.runAll overridden).removeVariable "base").store
    let t := removed.runAll unmoved
    ((empty.runAll overridden).removeVariable "base").answer = .ok true ∧
      Spares "base" removed unmoved ∧
      t.resolveVariable "base" none = pure none ∧
      t.resolveVariable "base" (some "note_d4") = pure none ∧
      t.effective? "base" (some "note_c4") = some (.literal (.number (.int 5))) := by
  intro removed t
  obtain ⟨hnone, hkept, -⟩ := removed_stays_removed rfl spares_unmoved
  refine ⟨rfl, spares_unmoved, hnone none (by simp), hnone (some "note_d4") ?_, ?_⟩
  · rintro k ⟨⟩ -
    rfl
  · exact (hkept "note_c4" (some (.literal (.number (.int 5)))) rfl).2 (by decide)

/-- The trigger that has its own value for a variable has it also when the variable is gone. -/
theorem removed_may_keep_value :
    ¬ ∀ ops name, ((empty.runAll ops).removeVariable name).answer = .ok true →
      ∀ key, ((empty.runAll ops).removeVariable name).store.resolveVariable name key = pure none := by
  intro hnone
  have hvalue : (((empty.runAll overridden).removeVariable "base").store.resolveVariable "base"
      (some "note_c4")).answer = .ok (some (.number (.int 5))) :=
    resolves_iff.mpr (.literal rfl (by simp))
  rw [hnone overridden "base" rfl] at hvalue
  cases hvalue

end Store

end Instrument
