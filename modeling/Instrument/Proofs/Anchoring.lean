import Instrument.Proofs.Atomicity
import Instrument.Proofs.Isolation

namespace Instrument

namespace Store

variable {s t u : Store} {name key : String}

def LosesOnly (s t : Store) : Prop :=
  ∀ ⦃scope name v⦄, t.variableAt? scope name = some v →
    s.variableAt? scope name = some v ∧
      ∀ info, s.nameInfo? name = some info → info.place = .variableTable scope →
        t.nameInfo? name = some info

theorem losesOnly_of_eq
    (hvariables : ∀ scope name, t.variableAt? scope name = s.variableAt? scope name)
    (hnames : ∀ {name info}, s.nameInfo? name = some info → t.nameInfo? name = some info) :
    LosesOnly s t := by
  intro scope name v hv
  rw [hvariables] at hv
  exact ⟨hv, fun info hinfo _ => hnames hinfo⟩

theorem LosesOnly.refl (s : Store) : LosesOnly s s := losesOnly_of_eq (fun _ _ => rfl) id

theorem Keeps.losesOnly (h : Keeps s t) : LosesOnly s t :=
  losesOnly_of_eq h.variableAt?_eq fun hinfo => (h.nameInfo?_eq _).trans hinfo

theorem losesOnly_withName (hfree : s.nameInfo? name = none) (info : NameInfo) :
    LosesOnly s (s.withName name info) :=
  losesOnly_of_eq (s.variableAt?_withName name info) (nameInfo?_withName_of_some hfree)

theorem variableAt?_empty (scope : Option String) (name : String) : empty.variableAt? scope name = none := by
  cases scope <;> rfl

theorem losesOnly_empty (s : Store) : LosesOnly s .empty := by
  intro scope name v hv
  rw [variableAt?_empty] at hv
  cases hv

theorem Replaces.losesOnly {place : Place} {info : Option NameInfo} {c : Option Component}
    (h : Replaces name place info c none s t)
    (hbefore : ∀ i, s.nameInfo? name = some i → i.place = place) : LosesOnly s t := by
  intro scope other v hv
  rw [h.variableAt?_eq] at hv
  split at hv
  · cases hv
  · next hother =>
      refine ⟨hv, ?_⟩
      intro i hi hplace
      rw [h.nameInfo?_eq, if_neg]
      · exact hi
      · rintro rfl
        exact hother ⟨(hbefore i hi).symm.trans hplace, rfl⟩

theorem losesOnly_of_leavesTrace {op : Operation} (h : op.LeavesTrace s t) : LosesOnly s t := by
  cases h with
  | named _ _ hfree => exact losesOnly_withName hfree _
  | declared _ _ hfree => exact losesOnly_withName hfree _
  | overridden => exact (s.keeps_declareTrigger _ _).losesOnly
  | given => exact (s.keeps_declareTrigger _ _).losesOnly

theorem losesOnly_of_ne {op : Operation} (h : (op.run s).answer ≠ .ok true) :
    LosesOnly s (op.run s).store := by
  obtain hkept | htrace := Operation.kept_or_leavesTrace h
  · rw [hkept]
    exact .refl s
  · exact losesOnly_of_leavesTrace htrace

theorem declares_or_losesOnly {op : Operation} (h : op.Changes s t) :
    (∃ name d scope key lower upper line sc value, op = .addVariable name d scope key lower upper line ∧
      (s.nameInfo? name = none ∨ s.nameInfo? name = some ⟨sc, variableKind, sc.home key⟩) ∧
      Replaces name (.variableTable (sc.home key)) (some ⟨sc, variableKind, sc.home key⟩) none
        (some ⟨name, value, sc, sc.home key, lower, upper, line⟩) s t) ∨
    LosesOnly s t := by
  cases h with
  | clears => exact .inr (losesOnly_empty s)
  | keeps hkeeps => exact .inr hkeeps.losesOnly
  | adds _ _ hfree _ hreplaces =>
      refine .inr (hreplaces.losesOnly ?_)
      intro i hi
      cases hfree.symm.trans hi
  | declares _ _ hfree _ hreplaces =>
      exact .inl ⟨_, _, _, _, _, _, _, _, _, rfl, hfree, hreplaces⟩
  | takes _ hinfo hreplaces =>
      refine .inr (hreplaces.losesOnly ?_)
      intro i hi
      rw [Option.some.inj (hinfo.symm.trans hi)]

/-- A variable carries the key of the scope where it lies, and its name is registered for that scope. -/
structure Anchored (s : Store) : Prop where
  registered : ∀ {scope name v}, s.variableAt? scope name = some v →
    ∃ info, s.nameInfo? name = some info ∧ info.place = .variableTable scope
  key_eq : ∀ {scope name v}, s.variableAt? scope name = some v → v.key = scope

theorem anchored_empty : Anchored .empty where
  registered h := by
    rw [variableAt?_empty] at h
    cases h
  key_eq h := by
    rw [variableAt?_empty] at h
    cases h

theorem Anchored.of_losesOnly (hs : s.Anchored) (h : LosesOnly s t) : t.Anchored where
  registered hv := by
    obtain ⟨hbefore, hkept⟩ := h hv
    obtain ⟨info, hinfo, hplace⟩ := hs.registered hbefore
    exact ⟨info, hkept info hinfo hplace, hplace⟩
  key_eq hv := hs.key_eq (h hv).1

theorem Anchored.of_declares (hs : s.Anchored) {scope : ScopeKind} {home : Option String} {v : Variable}
    (hfree : s.nameInfo? name = none ∨ s.nameInfo? name = some ⟨scope, variableKind, scope.home home⟩)
    (hkey : v.key = scope.home home)
    (h : Replaces name (.variableTable (scope.home home)) (some ⟨scope, variableKind, scope.home home⟩)
      none (some v) s t) : t.Anchored := by
  constructor
  · intro scope' other w hw
    rw [h.variableAt?_eq] at hw
    rw [h.nameInfo?_eq]
    split at hw
    · next heq =>
        rw [if_pos heq.2, ← heq.1]
        exact ⟨_, rfl, place_variable⟩
    · next hne =>
        obtain ⟨i, hi, hplace⟩ := hs.registered hw
        rw [if_neg]
        · exact ⟨i, hi, hplace⟩
        · rintro rfl
          obtain hfree | hsame := hfree
          · cases hfree.symm.trans hi
          · obtain rfl := Option.some.inj (hsame.symm.trans hi)
            exact hne ⟨place_variable.symm.trans hplace, rfl⟩
  · intro scope' other w hw
    rw [h.variableAt?_eq] at hw
    split at hw
    · next heq =>
        obtain rfl := Option.some.inj hw
        injection heq.1 with hscope
        exact hkey.trans hscope
    · exact hs.key_eq hw

/-- Operations of every kind, also those that fail, leave variables where their names are registered. -/
theorem Anchored.run (hs : s.Anchored) (op : Operation) : (op.run s).store.Anchored := by
  by_cases h : (op.run s).answer = .ok true
  · obtain ⟨_, _, _, _, _, _, _, _, _, -, hfree, hreplaces⟩ | hloses :=
      declares_or_losesOnly (Operation.changes_of_ok h)
    · exact hs.of_declares hfree rfl hreplaces
    · exact hs.of_losesOnly hloses
  · exact hs.of_losesOnly (losesOnly_of_ne h)

theorem Anchored.runAll (hs : s.Anchored) (ops : List Operation) : (s.runAll ops).Anchored := by
  induction ops generalizing s with
  | nil => exact hs
  | cons op rest ih => exact ih (hs.run op)

theorem Keeps.findVariable?_eq (h : Keeps s t) (name : String) :
    t.findVariable? name = s.findVariable? name := by
  rw [Store.findVariable?_eq, Store.findVariable?_eq, variableInfo?, variableInfo?, h.nameInfo?_eq]
  congr
  funext info
  exact h.variableAt?_eq ..

theorem Anchored.home_of_findVariable? (hs : s.Anchored) {v : Variable}
    (h : s.findVariable? name = some v) : s.variableAt? v.key name = some v := by
  rw [findVariable?_eq, Option.bind_eq_some_iff] at h
  obtain ⟨info, -, hv⟩ := h
  rw [hs.key_eq hv]
  exact hv

/-- The variable lives in the trigger, and its value is resolved there, being no literal. -/
def Overridable (s : Store) (name key : String) : Prop :=
  key ≠ "" ∧ ∃ v, s.findVariable? name = some v ∧ v.key = some key ∧ ∀ d, v.value ≠ some (.literal d)

theorem Overridable.of_keeps (h : s.Overridable name key) (hkeeps : Keeps s t) :
    t.Overridable name key := by
  obtain ⟨hkey, v, hfound, hv⟩ := h
  exact ⟨hkey, v, (hkeeps.findVariable?_eq name).trans hfound, hv⟩

theorem Overridable.variableValue (h : s.Overridable name key) :
    s.variableValue name = s.resolveVariable name (some key) := by
  obtain ⟨-, v, hfound, hkey, hvalue⟩ := h
  rw [Store.variableValue, hfound]
  simp only [hkey]

theorem Beside.variableValue_eq (hbeside : Beside key s t) (hkeeps : Keeps s t)
    (h : ¬ s.Overridable name key) : t.variableValue name = s.variableValue name := by
  rw [variableValue, variableValue, hkeeps.findVariable?_eq]
  cases hfound : s.findVariable? name with
  | none => rfl
  | some v =>
      simp only
      split
      · rfl
      · next hvalue =>
          refine resolve_congr ?_ [] name
          intro other
          by_cases hkey : v.key = some key
          · by_cases hblank : key = ""
            · rw [hkey, hblank, effective?_blank, effective?_blank]
              rw [hbeside.given?_eq (by simp)]
            · exact absurd ⟨hblank, v, hfound, hkey, hvalue⟩ h
          · exact hbeside.effective?_eq hkey other

theorem override?_removeOverride (s : Store) (name key other key' : String) :
    (s.removeOverride name key).store.override? other key' =
      if key' = key ∧ other = name then none else s.override? other key' := by
  have habsent (h : s.override? name key = none) :
      s.override? other key' = if key' = key ∧ other = name then none else s.override? other key' := by
    split
    · next heq => rw [heq.1, heq.2, h]
    · rfl
  rw [removeOverride]
  cases htrigger : s.trigger? key with
  | none => exact habsent (by rw [override?, htrigger, Option.bind_none])
  | some x =>
      simp only
      split
      · rw [Outcome.store_done, override?_changeTrigger]
        by_cases hkey : key' = key
        · simp only [hkey, if_true, true_and, Table.get?_erase, overrides_triggerOrFresh]
        · simp only [hkey, if_false, false_and]
      · next hcontains =>
          refine habsent ?_
          rw [override?, htrigger, Option.bind_some]
          simpa [Table.contains] using hcontains

theorem effective?_of_override {value : Option Value} (hkey : key ≠ "")
    (h : s.override? name key = some value) : s.effective? name (some key) = value := by
  have hgiven : s.given? (some key) name = some value := by rw [given?, h, Option.some_or]
  rw [effective?_some hkey, hgiven, Option.some_or, Option.join_some]

theorem effective?_of_variableAt? {v : Variable} (hkey : key ≠ "") (hoverride : s.override? name key = none)
    (h : s.variableAt? (some key) name = some v) : s.effective? name (some key) = v.value := by
  have hgiven : s.given? (some key) name = some v.value := by
    rw [given?, hoverride, Option.none_or, h, Option.map_some]
  rw [effective?_some hkey, hgiven, Option.some_or, Option.join_some]

/-- The value of its own that a variable has is untouched by those that triggers give to it, or take
back, with one exception: where the variable lives in that trigger and its definition is a reference,
arithmetic, or nothing, the trigger's value comes first, and the definition counts again when it is
taken back. -/
theorem own_value_beside_overrides (ops : List Operation) (name key : String) :
    let s := empty.runAll ops
    ((∀ d, (s.setOverride name d key).store.variableValue name = s.variableValue name) ↔
      ¬ s.Overridable name key) ∧
    (¬ s.Overridable name key →
      (s.removeOverride name key).store.variableValue name = s.variableValue name) ∧
    (s.Overridable name key →
      (∀ d value, Value.ofDatum d = .ok value →
        let t := (s.setOverride name d key).store
        t.variableValue name = t.resolveVariable name (some key) ∧
          t.effective? name (some key) = value) ∧
      let t := (s.removeOverride name key).store
      t.variableValue name = t.resolveVariable name (some key) ∧
        t.effective? name (some key) = (s.findVariable? name).bind (·.value)) := by
  intro s
  have hanchored : s.Anchored := anchored_empty.runAll ops
  have hgiven (h : s.Overridable name key) (d : Datum) (value : Option Value)
      (hvalue : Value.ofDatum d = .ok value) :
      let t := (s.setOverride name d key).store
      t.variableValue name = t.resolveVariable name (some key) ∧
        t.effective? name (some key) = value := by
    refine ⟨(h.of_keeps (s.keeps_setOverride name d key)).variableValue, ?_⟩
    refine effective?_of_override h.1 ?_
    rw [override?_setOverride_of_ok s name key hvalue, if_pos ⟨rfl, rfl⟩]
  refine ⟨⟨?_, ?_⟩, ?_, ?_⟩
  · -- Two numbers given in turn would both be the value of before.
    intro hsame h
    have hcomes (n : Number) :
        (s.variableValue name).answer = .ok (some (.number n)) := by
      obtain ⟨hresolved, heffective⟩ := hgiven h (.number n) (some (.literal (.number n))) rfl
      rw [← hsame (.number n), hresolved]
      exact answer_literal heffective (by simp)
    have hequal := (hcomes (.int 0)).symm.trans (hcomes (.int 1))
    simp at hequal
  · intro h d
    exact (s.beside_setOverride name d key).variableValue_eq (s.keeps_setOverride name d key) h
  · exact (s.beside_removeOverride name key).variableValue_eq (s.keeps_removeOverride name key)
  · intro h
    refine ⟨hgiven h, (h.of_keeps (s.keeps_removeOverride name key)).variableValue, ?_⟩
    obtain ⟨hkey, v, hfound, hhome, -⟩ := h
    have hv := hanchored.home_of_findVariable? hfound
    rw [hhome, ← (s.keeps_removeOverride name key).variableAt?_eq] at hv
    rw [hfound, Option.bind_some]
    refine effective?_of_variableAt? hkey ?_ hv
    rw [override?_removeOverride, if_pos ⟨rfl, rfl⟩]

def echoed : List Operation :=
  [.addVariable "base" (.number (.int 2)) (.text "global") none .null .null none,
    .addVariable "echo" (.value (.variableRef (.text "base"))) (.text "trigger") (some "note_c4")
      .null .null none]

/-- The trigger's value for a reference of its own takes the place of the variable's. -/
theorem own_value_not_always_kept :
    ¬ ∀ ops name d key, ((empty.runAll ops).setOverride name d key).store.variableValue name =
      (empty.runAll ops).variableValue name := by
  intro hsame
  have hbefore : ((empty.runAll echoed).variableValue "echo").answer = .ok (some (.number (.int 2))) :=
    resolves_iff.mpr (.reference rfl (.literal rfl (by simp)))
  have hafter : (((empty.runAll echoed).setOverride "echo" (.number (.int 5)) "note_c4").store.variableValue
      "echo").answer = .ok (some (.number (.int 5))) :=
    resolves_iff.mpr (.literal rfl (by simp))
  rw [hsame, hbefore] at hafter
  cases hafter

end Store

end Instrument
