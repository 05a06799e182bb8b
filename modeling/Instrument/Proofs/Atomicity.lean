import Instrument.Proofs.Registry

namespace Instrument

namespace Store

variable {s : Store} {name key attr : String}

theorem withName_ne (hfree : s.nameInfo? name = none) (info : NameInfo) : s.withName name info ≠ s := by
  intro hsame
  have hinfo := s.nameInfo?_withName name info name
  rw [if_pos rfl, hsame, hfree] at hinfo
  cases hinfo

theorem declareTrigger_ne (hfresh : s.trigger? key = none) (kind : String) :
    s.declareTrigger key kind ≠ s := by
  intro hsame
  have htrigger := s.trigger?_declareTrigger key kind key
  rw [if_pos rfl, hsame, hfresh] at htrigger
  cases htrigger

theorem changeTrigger_id_of_some {x : Trigger} (h : s.trigger? key = some x) :
    s.changeTrigger key id = s := by
  have hsame : s.triggers.insert key (id (s.triggerOrFresh key "")) = s.triggers := by
    rw [triggerOrFresh, h]
    exact Table.insert_self h
  rw [changeTrigger, hsame]

theorem cell_of_fresh (hfresh : s.trigger? key = none) :
    Cell.ofOption ((s.triggerOrFresh key "").attributes.get? attr) = .ok .empty := by
  rw [triggerOrFresh, hfresh]
  rfl

theorem store_updateComponent_of_ne {f : Cell → Except DatumError Cell}
    (h : (s.updateComponent name attr f).answer ≠ .ok true) :
    (s.updateComponent name attr f).store = s := by
  rw [updateComponent] at h ⊢
  split
  · rfl
  · split
    · rfl
    · simp_all

end Store

namespace Operation

open Store

/-- What is left by an operation that fails late: a name registered for something that is not there,
or a trigger declared for a value that it is not given. -/
inductive LeavesTrace (s : Store) : Operation → Store → Prop
  | named {kind name : String} {scope : Datum} {key : Option String}
      {attributes : List (String × Datum)} {sc : ScopeKind} {e : DatumError}
      (hscope : ScopeKind.read scope = .ok sc) (hkey : sc.lacksKey key = false)
      (hfree : s.nameInfo? name = none) (hunread : readAttributes .empty attributes = .error e) :
      LeavesTrace s (.addComponent kind name scope key attributes) (s.withName name ⟨sc, kind, key⟩)
  | declared {name : String} {d scope : Datum} {key : Option String} {lower upper : Datum}
      {line : Option Int} {sc : ScopeKind} {e : DatumError}
      (hscope : ScopeKind.read scope = .ok sc) (hkey : sc.lacksKey key = false)
      (hfree : s.nameInfo? name = none) (hunread : Value.ofDatum d = .error e) :
      LeavesTrace s (.addVariable name d scope key lower upper line)
        (s.withName name ⟨sc, variableKind, sc.keyFor key⟩)
  | overridden {name : String} {d : Datum} {key : String} {e : DatumError}
      (hfresh : s.trigger? key = none) (hunread : Value.ofDatum d = .error e) :
      LeavesTrace s (.setOverride name d key) (s.declareTrigger key "")
  | given {key attr : String} {d : Datum} {e : DatumError}
      (hfresh : s.trigger? key = none) (hunread : Value.ofDatum d = .error e) :
      LeavesTrace s (.setTriggerAttribute key attr d) (s.declareTrigger key "")

variable {s t : Store} {op : Operation}

theorem LeavesTrace.ne (h : op.LeavesTrace s t) : t ≠ s := by
  cases h with
  | named _ _ hfree => exact withName_ne hfree _
  | declared _ _ hfree => exact withName_ne hfree _
  | overridden hfresh => exact declareTrigger_ne hfresh ""
  | given hfresh => exact declareTrigger_ne hfresh ""

theorem LeavesTrace.run (h : op.LeavesTrace s t) :
    (op.run s).store = t ∧ ∃ e, (op.run s).answer = .error (.datum e) := by
  cases h with
  | @named kind name scope key attributes sc e hscope hkey hfree hunread =>
      have hregistered : s.register? name ⟨sc, kind, key⟩ = some _ := register?_eq_some.2 ⟨hfree, rfl⟩
      have hadded : s.addComponent kind name sc key attributes =
          .failed (s.withName name ⟨sc, kind, key⟩) (.datum e) := by
        simp [Store.addComponent, hkey, hregistered, hunread]
      simp only [Operation.run, Outcome.inScope, hscope, hadded]
      exact ⟨rfl, e, rfl⟩
  | @declared name d scope key lower upper line sc e hscope hkey hfree hunread =>
      have hregistered : s.register? name ⟨sc, variableKind, sc.keyFor key⟩ = some _ :=
        register?_eq_some.2 ⟨hfree, rfl⟩
      have hrenews : s.renews name sc key = false := by rw [renews, hfree, Option.any_none]
      have hadded : s.addVariable name d sc key lower upper line =
          .failed (s.withName name ⟨sc, variableKind, sc.keyFor key⟩) (.datum e) := by
        simp [Store.addVariable, hkey, hrenews, hregistered, hunread]
      simp only [Operation.run, Outcome.inScope, hscope, hadded]
      exact ⟨rfl, e, rfl⟩
  | @overridden name d key e hfresh hunread =>
      have hset : s.setOverride name d key = .failed (s.changeTrigger key id) (.datum e) := by
        simp only [Store.setOverride, hunread]
      simp only [Operation.run, hset]
      exact ⟨rfl, e, rfl⟩
  | @given key attr d e hfresh hunread =>
      have hset : s.setTriggerAttribute key attr d = .failed (s.changeTrigger key id) (.datum e) := by
        simp only [Store.setTriggerAttribute, updateTrigger, cell_of_fresh hfresh, Cell.setValue, hunread]
        rfl
      simp only [Operation.run, hset]
      exact ⟨rfl, e, rfl⟩

theorem kept_or_named {kind name : String} {scope : Datum} {key : Option String}
    {attributes : List (String × Datum)}
    (h : ((addComponent kind name scope key attributes).run s).answer ≠ .ok true) :
    ((addComponent kind name scope key attributes).run s).store = s ∨
      LeavesTrace s (addComponent kind name scope key attributes)
        ((addComponent kind name scope key attributes).run s).store := by
  simp only [Operation.run, Outcome.inScope] at h ⊢
  split
  · next sc hscope =>
      simp only [hscope, Store.addComponent] at h ⊢
      split
      · exact .inl rfl
      · next hkey =>
          split
          · exact .inl rfl
          · next registered hregistered =>
              obtain ⟨hfree, rfl⟩ := register?_eq_some.1 hregistered
              split
              · next e hunread => exact .inr (.named hscope (by simpa using hkey) hfree hunread)
              · simp_all
  · exact .inl rfl

theorem kept_or_declared {name : String} {d scope : Datum} {key : Option String} {lower upper : Datum}
    {line : Option Int}
    (h : ((addVariable name d scope key lower upper line).run s).answer ≠ .ok true) :
    ((addVariable name d scope key lower upper line).run s).store = s ∨
      LeavesTrace s (addVariable name d scope key lower upper line)
        ((addVariable name d scope key lower upper line).run s).store := by
  simp only [Operation.run, Outcome.inScope] at h ⊢
  split
  · next sc hscope =>
      simp only [hscope, Store.addVariable] at h ⊢
      split
      · exact .inl rfl
      · next hkey =>
          split
          · exact .inl rfl
          · next registered hregistered =>
              split
              · next e hunread =>
                  split at hregistered
                  · obtain rfl := Option.some.inj hregistered
                    exact .inl rfl
                  · obtain ⟨hfree, rfl⟩ := register?_eq_some.1 hregistered
                    exact .inr (.declared hscope (by simpa using hkey) hfree hunread)
              · simp_all
  · exact .inl rfl

theorem kept_or_overridden {name key : String} {d : Datum}
    (h : ((setOverride name d key).run s).answer ≠ .ok true) :
    ((setOverride name d key).run s).store = s ∨
      LeavesTrace s (setOverride name d key) ((setOverride name d key).run s).store := by
  simp only [Operation.run, Outcome.accepted, Store.setOverride] at h ⊢
  cases hread : Value.ofDatum d with
  | ok value =>
      rw [hread] at h
      exact absurd rfl h
  | error e =>
      cases hfound : s.trigger? key with
      | none => exact .inr (.overridden hfound hread)
      | some x => exact .inl (changeTrigger_id_of_some hfound)

theorem store_updateTrigger_of_some {key attr : String} {f : Cell → Except DatumError Cell} {x : Trigger}
    (hfound : s.trigger? key = some x) (h : (s.updateTrigger key attr f).accepted.answer ≠ .ok true) :
    (s.updateTrigger key attr f).store = s := by
  simp only [updateTrigger, Outcome.accepted] at h ⊢
  split
  · exact changeTrigger_id_of_some hfound
  · next hread =>
      rw [hread] at h
      exact absurd rfl h

theorem kept_or_given {key attr : String} {d : Datum}
    (h : ((setTriggerAttribute key attr d).run s).answer ≠ .ok true) :
    ((setTriggerAttribute key attr d).run s).store = s ∨
      LeavesTrace s (setTriggerAttribute key attr d) ((setTriggerAttribute key attr d).run s).store := by
  cases hfound : s.trigger? key with
  | some x => exact .inl (store_updateTrigger_of_some hfound h)
  | none =>
      right
      simp only [Operation.run, Outcome.accepted, Store.setTriggerAttribute, updateTrigger,
        cell_of_fresh hfound, Cell.setValue] at h ⊢
      cases hread : Value.ofDatum d with
      | ok value =>
          rw [hread] at h
          exact absurd rfl h
      | error e => exact .given hfound hread

/-- An operation that is refused or fails leaves the store as it was, or one of those traces. -/
theorem kept_or_leavesTrace (h : (op.run s).answer ≠ .ok true) :
    (op.run s).store = s ∨ op.LeavesTrace s (op.run s).store := by
  cases op with
  | reset | declareTrigger => exact absurd rfl h
  | addComponent => exact kept_or_named h
  | removeComponent name =>
      simp only [Operation.run, Store.removeComponent] at h ⊢
      split
      · exact .inl rfl
      · simp_all
  | setComponentAttribute => exact .inl (store_updateComponent_of_ne h)
  | setComponentModulation => exact .inl (store_updateComponent_of_ne h)
  | addVariable => exact kept_or_declared h
  | removeVariable name =>
      simp only [Operation.run, Store.removeVariable] at h ⊢
      split
      · exact .inl rfl
      · simp_all
  | setOverride => exact kept_or_overridden h
  | removeOverride name key =>
      simp only [Operation.run, Store.removeOverride] at h ⊢
      split
      · exact .inl rfl
      · split
        · simp_all
        · exact .inl rfl
  | setTriggerAttribute => exact kept_or_given h
  | setTriggerModulation key attr modulation =>
      cases hfound : s.trigger? key with
      | some x => exact .inl (store_updateTrigger_of_some hfound h)
      | none =>
          simp only [Operation.run, Outcome.accepted, Store.setTriggerModulation, updateTrigger,
            cell_of_fresh hfound, Cell.setModulation] at h
          exact absurd rfl h

/-- An operation that is refused, or that fails, leaves the store as it was, unless a value or an
attribute that it is given cannot be read while its scope and its name are in order, or its trigger
is missing. Then nothing is lost either: the store is the one before with that name registered, or
with that trigger declared. -/
theorem store_kept_iff (h : (op.run s).answer ≠ .ok true) :
    ((op.run s).store = s ↔ ∀ t, ¬ op.LeavesTrace s t) ∧
      (∀ t, op.LeavesTrace s t → (op.run s).store = t) ∧
      ((op.run s).answer = .ok false → (op.run s).store = s) := by
  have hkept_of (hnone : ∀ t, ¬ op.LeavesTrace s t) : (op.run s).store = s := by
    obtain hkept | htrace := kept_or_leavesTrace h
    · exact hkept
    · exact absurd htrace (hnone _)
  refine ⟨⟨?_, hkept_of⟩, fun t htrace => htrace.run.1, ?_⟩
  · intro hkept t htrace
    rw [htrace.run.1] at hkept
    exact htrace.ne hkept
  · intro hrefused
    refine hkept_of fun t htrace => ?_
    obtain ⟨-, e, herror⟩ := htrace.run
    rw [hrefused] at herror
    cases herror

def unreadable : Operation :=
  .addComponent "lfo" "wobble" (.text "global") none [("rate", .bool true)]

theorem store_kept_iff_unreadable :
    (unreadable.run .empty).answer ≠ .ok true ∧
      (unreadable.run .empty).store = Store.empty.withName "wobble" ⟨.global, "lfo", none⟩ := by
  have hfails : (unreadable.run .empty).answer ≠ .ok true := by
    intro h
    cases h
  obtain ⟨-, htrace, -⟩ := store_kept_iff hfails
  exact ⟨hfails, htrace _ (.named rfl rfl rfl rfl)⟩

/-- A name may be taken for good by an operation that failed. -/
theorem failure_not_without_trace :
    ¬∀ op : Operation, (op.run .empty).answer ≠ .ok true → (op.run .empty).store = .empty := by
  intro hkept
  have hempty := hkept unreadable fun h => nomatch h
  have hregistered : (unreadable.run .empty).store.isRegistered "wobble" = true := by decide
  rw [hempty] at hregistered
  cases hregistered

end Operation

end Instrument
