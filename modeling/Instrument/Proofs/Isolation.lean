import Instrument.Proofs.Resolution
import Instrument.Proofs.Scoping
import Instrument.Store.Actions

namespace Instrument

/-- The operations that concern one trigger alone: its values for variables, the variables that live
in it, and its attributes. -/
inductive Operation.StaysIn (s : Store) (key : String) : Operation → Prop
  | setOverride (name : String) (d : Datum) : StaysIn s key (.setOverride name d key)
  | removeOverride (name : String) : StaysIn s key (.removeOverride name key)
  | addVariable (name : String) (d lower upper : Datum) (line : Option Int) :
      StaysIn s key
        (.addVariable name d (.text ScopeKind.trigger.name) (some key) lower upper line)
  | removeVariable {name : String} {info : NameInfo} (hinfo : s.variableInfo? name = some info)
      (hhome : info.home = some key) : StaysIn s key (.removeVariable name)
  | setTriggerAttribute (attr : String) (d : Datum) : StaysIn s key (.setTriggerAttribute key attr d)
  | setTriggerModulation (attr : String) (modulation : Option ComponentRef) :
      StaysIn s key (.setTriggerModulation key attr modulation)

namespace Store

variable {s t u : Store} {key : String}

/-- The stores differ at most in one trigger, in the variables that live in it, and in names that are
registered. -/
structure Beside (key : String) (s t : Store) : Prop where
  trigger?_eq : ∀ other, other ≠ key → t.trigger? other = s.trigger? other
  variableAt?_eq : ∀ scope, scope ≠ some key →
    ∀ name, t.variableAt? scope name = s.variableAt? scope name

theorem Beside.refl (key : String) (s : Store) : Beside key s s := ⟨fun _ _ => rfl, fun _ _ _ => rfl⟩

theorem Beside.trans (h : Beside key s t) (h' : Beside key t u) : Beside key s u where
  trigger?_eq other hne := (h'.trigger?_eq other hne).trans (h.trigger?_eq other hne)
  variableAt?_eq scope hne name :=
    (h'.variableAt?_eq scope hne name).trans (h.variableAt?_eq scope hne name)

theorem beside_changeTrigger (s : Store) (key : String) (f : Trigger → Trigger) :
    Beside key s (s.changeTrigger key f) where
  trigger?_eq other hne := by rw [trigger?_changeTrigger, if_neg hne]
  variableAt?_eq scope _ name := by cases scope <;> rfl

theorem beside_updateTrigger (s : Store) (key attr : String) (f : Cell → Except DatumError Cell) :
    Beside key s (s.updateTrigger key attr f).store := by
  simp only [updateTrigger]
  cases f (Cell.ofOption ((s.triggerOrFresh key "").attributes.get? attr)) with
  | error e => exact s.beside_changeTrigger key id
  | ok cell => exact s.beside_changeTrigger key (·.setCell attr cell)

theorem beside_setOverride (s : Store) (name : String) (d : Datum) (key : String) :
    Beside key s (s.setOverride name d key).store := by
  rw [setOverride]
  cases Value.ofDatum d with
  | error e => exact s.beside_changeTrigger key id
  | ok value =>
      simp only [Outcome.store_done]
      apply beside_changeTrigger

theorem beside_removeOverride (s : Store) (name key : String) :
    Beside key s (s.removeOverride name key).store := by
  rw [removeOverride]
  cases s.trigger? key with
  | none => exact .refl key s
  | some t =>
      simp only
      split
      · simp only [Outcome.store_done]
        apply beside_changeTrigger
      · exact .refl key s

theorem beside_withName (s : Store) (key name : String) (info : NameInfo) :
    Beside key s (s.withName name info) :=
  ⟨fun _ _ => rfl, fun scope _ => s.variableAt?_withName name info scope⟩

theorem beside_placeVariable {v : Variable} (s : Store) (hhome : v.home = some key) :
    Beside key s (s.placeVariable v) where
  trigger?_eq other _ := by
    rw [placeVariable]
    cases v.scope <;> rfl
  variableAt?_eq scope hne name := by
    rw [variableAt?_placeVariable, hhome, if_neg fun heq => hne heq.1]

theorem beside_addVariable (s : Store) (name : String) (d : Datum) (key : String)
    (lower upper : Datum) (line : Option Int) :
    Beside key s (s.addVariable name d .trigger (some key) lower upper line).store := by
  rw [addVariable]
  split
  · exact .refl key s
  · generalize hr : (if s.renews name .trigger (some key) then some s
      else s.register? name ⟨.trigger, variableKind, ScopeKind.keyFor .trigger (some key)⟩) = registered
    cases registered with
    | none => exact .refl key s
    | some store =>
        have hstore : Beside key s store := by
          split at hr
          · rw [← Option.some.inj hr]
            exact .refl key s
          · rw [(register?_eq_some.mp hr).2]
            exact s.beside_withName key name _
        simp only
        cases Value.ofDatum d with
        | error e => exact hstore
        | ok value =>
            simp only [Outcome.store_done]
            exact hstore.trans (beside_placeVariable store rfl)

theorem beside_removeVariable {name : String} {info : NameInfo}
    (hinfo : s.variableInfo? name = some info) (hhome : info.home = some key) :
    Beside key s (s.removeVariable name).store := by
  rw [removeVariable_eq, hinfo]
  constructor
  · intro other _
    rw [Outcome.store_done, withoutVariable]
    cases info.scope <;> rfl
  · intro scope hne other
    rw [Outcome.store_done, variableAt?_unregister, variableAt?_withoutVariable, hhome,
      if_neg fun heq => hne heq.1]

theorem beside_run {op : Operation} (h : op.StaysIn s key) : Beside key s (op.run s).store := by
  cases h with
  | setOverride name d => exact s.beside_setOverride name d key
  | removeOverride name => exact s.beside_removeOverride name key
  | addVariable name d lower upper line => exact s.beside_addVariable name d key lower upper line
  | removeVariable hinfo hhome => exact beside_removeVariable hinfo hhome
  | setTriggerAttribute attr d => exact s.beside_updateTrigger key attr _
  | setTriggerModulation attr modulation => exact s.beside_updateTrigger key attr _

theorem Beside.given?_eq (h : Beside key s t) {scope : Option String} (hne : scope ≠ some key)
    (name : String) : t.given? scope name = s.given? scope name := by
  cases scope with
  | none => rw [given?, h.variableAt?_eq none hne, given?]
  | some other =>
      have htrigger := h.trigger?_eq other fun heq => hne (congrArg some heq)
      rw [given?, override?, htrigger, h.variableAt?_eq _ hne, given?, override?]

theorem Beside.effective?_eq (h : Beside key s t) {scope : Option String} (hne : scope ≠ some key)
    (name : String) : t.effective? name scope = s.effective? name scope := by
  have hglobal : t.given? none name = s.given? none name := h.given?_eq (by simp) name
  cases scope with
  | none => rw [effective?_none, effective?_none, hglobal]
  | some other =>
      by_cases hother : other = ""
      · rw [hother, effective?_blank, effective?_blank, hglobal]
      · rw [effective?_some hother, effective?_some hother, hglobal, h.given?_eq hne]

theorem resolve_congr {scope : Option String}
    (hsame : ∀ name, t.effective? name scope = s.effective? name scope) (busy : List String)
    (name : String) : t.resolve scope busy name = s.resolve scope busy name := by
  induction busy, name using resolving_induction s scope with
  | step busy name ih =>
      rw [resolve_eq, resolve_eq, hsame]
      cases hvalue : s.effective? name scope with
      | none => rfl
      | some v =>
          cases v with
          | literal d => cases d <;> rfl
          | componentRef | unresolved => rfl
          | variableRef other =>
              cases other with
              | text other =>
                  by_cases hbusy : name ∈ busy
                  · simp only [if_pos hbusy]
                  · simp only [if_neg hbusy]
                    exact ih _ other hvalue hbusy
              | _ => rfl
          | expression source =>
              by_cases hbusy : name ∈ busy
              · simp only [if_pos hbusy]
              · have hask : (fun other => t.resolve scope (name :: busy) other) =
                    fun other => s.resolve scope (name :: busy) other :=
                  funext fun other => ih _ other hvalue hbusy
                simp only [if_neg hbusy, hask]

theorem resolveValue_congr {scope : Option String}
    (hsame : ∀ name, t.effective? name scope = s.effective? name scope) (v : Value)
    (fallback : Datum) : t.resolveValue v scope fallback = s.resolveValue v scope fallback := by
  have hask (name : String) : t.resolveVariable name scope = s.resolveVariable name scope :=
    resolve_congr hsame [] name
  cases v with
  | literal | componentRef | unresolved => rfl
  | variableRef name =>
      rw [resolveValue, resolveValue]
      cases name with
      | text name => simp only [resolveNamed, hask]
      | _ => rfl
  | expression source => simp only [resolveValue, hask]

/-- An operation that stays in one trigger, whether it succeeds or not, is not seen from another:
variables, values and actions come to the same there, and variables also outside of all triggers. -/
theorem same_seen_from_elsewhere {op : Operation} (hop : op.StaysIn s key) {other : String}
    (hother : other ≠ key) :
    (∀ name, (op.run s).store.resolveVariable name (some other) =
      s.resolveVariable name (some other)) ∧
    (∀ name, (op.run s).store.resolveVariable name none = s.resolveVariable name none) ∧
    (∀ v fallback, (op.run s).store.resolveValue v (some other) fallback =
      s.resolveValue v (some other) fallback) ∧
    (∀ a fallback, (op.run s).store.resolveAttribute a (some other) fallback =
      s.resolveAttribute a (some other) fallback) ∧
    (op.run s).store.actions other = s.actions other := by
  have hbeside : Beside key s (op.run s).store := beside_run hop
  have hne : some other ≠ some key := fun heq => hother (Option.some.inj heq)
  have hhere := hbeside.effective?_eq hne
  have hvalue := resolveValue_congr hhere
  refine ⟨resolve_congr hhere [], resolve_congr (hbeside.effective?_eq (by simp)) [], hvalue, ?_, ?_⟩
  · intro a fallback
    rw [resolveAttribute, resolveAttribute]
    cases a.value with
    | none => rfl
    | some v => exact hvalue v fallback
  · rw [Store.actions, triggerCells, hbeside.trigger?_eq other hother, Store.actions, triggerCells]

def viewed : List Operation :=
  [.addVariable "depth" (.number (.int 1)) (.text "global") none .null .null none,
    .addVariable "echo" (.value (.variableRef (.text "depth"))) (.text "global") none .null .null none,
    .setTriggerAttribute "note_d4" "pitch" (.value (.variableRef (.text "echo")))]

theorem viewed_from_elsewhere :
    (empty.runAll viewed).Reached ∧
      ((Operation.setOverride "depth" (.number (.int 9)) "note_c4").run (empty.runAll viewed)).store.effective?
        "depth" (some "note_c4") = some (.literal (.number (.int 9))) ∧
      (((Operation.setOverride "depth" (.number (.int 9)) "note_c4").run
        (empty.runAll viewed)).store.resolveVariable "echo" (some "note_d4")).answer =
          .ok (some (.number (.int 1))) := by
  have hreached : (empty.runAll viewed).Reached :=
    .next (.setTriggerAttribute ..) (.next (.addVariable ..) (.next (.addVariable ..) .fresh rfl rfl)
      rfl rfl) rfl rfl
  have hop : (Operation.setOverride "depth" (.number (.int 9)) "note_c4").StaysIn
      (empty.runAll viewed) "note_c4" := .setOverride ..
  have hne : "note_d4" ≠ "note_c4" := by decide
  have hsame := same_seen_from_elsewhere hop hne
  refine ⟨hreached, rfl, ?_⟩
  rw [hsame.1]
  exact resolves_iff.mpr (.reference rfl (.literal rfl (by simp)))

end Store

end Instrument
