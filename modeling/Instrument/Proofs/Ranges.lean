import Instrument.Proofs.Holdings
import Instrument.Proofs.Past
import Instrument.Proofs.Scoping
import Instrument.Proofs.Snapshots

namespace Instrument

namespace Binary64

open Float.Model (UnpackedFloat)

theorem then_compare_swap (e f : Int) (m n : Nat) :
    (compare f e).then (compare n m) = ((compare e f).then (compare m n)).swap := by
  rw [Ordering.swap_then, ← Std.OrientedOrd.eq_swap, ← Std.OrientedOrd.eq_swap]

theorem compare_swap (x y : UnpackedFloat) : y.compare x = (x.compare y).map Ordering.swap := by
  cases x with
  | notANumber => cases y <;> rfl
  | infinity s =>
      cases y with
      | infinity t => cases s <;> cases t <;> rfl
      | notANumber | zero | finite => cases s <;> rfl
  | zero s =>
      cases y with
      | infinity t | zero t | finite t => cases t <;> rfl
      | notANumber => rfl
  | finite s m e hm =>
      cases y with
      | infinity t => cases s <;> cases t <;> rfl
      | notANumber => rfl
      | zero t => cases s <;> rfl
      | finite t n f hn =>
          have hsize := then_compare_swap e f m n
          cases s with
          | negative =>
              cases t with
              | negative => exact congrArg (fun o => some o.swap) hsize
              | positive => rfl
          | positive =>
              cases t with
              | negative => rfl
              | positive => exact congrArg some hsize

theorem isSome_compare {x y : UnpackedFloat} (hx : x.isNaN = false) (hy : y.isNaN = false) :
    (x.compare y).isSome = true := by
  cases x with
  | notANumber => cases hx
  | infinity s =>
      cases y with
      | notANumber => cases hy
      | infinity | zero | finite => cases s <;> rfl
  | zero s =>
      cases y with
      | notANumber => cases hy
      | infinity t | zero t | finite t => cases t <;> rfl
  | finite s m e hm =>
      cases y with
      | notANumber => cases hy
      | infinity t | zero t | finite t => cases s <;> cases t <;> rfl

theorem isNaN_of_isFinite {x : Float} (h : x.isFinite = true) : x.isNaN = false := by
  change x.toModel.unpack.isFinite = true at h
  change x.toModel.unpack.isNaN = false
  cases hx : x.toModel.unpack with
  | notANumber =>
      rw [hx] at h
      cases h
  | infinity | zero | finite => rfl

theorem lt_iff {x y : Float} : x < y ↔ x.toModel.unpack.compare y.toModel.unpack = some .lt := by
  have hmodel : x < y ↔ decide (x.toModel < y.toModel) = true := Iff.rfl
  rw [hmodel, decide_eq_true_iff]
  exact beq_iff_eq

theorem le_iff {x y : Float} :
    x ≤ y ↔ (x.toModel.unpack.compare y.toModel.unpack).any (·.isLE) = true := by
  have hmodel : x ≤ y ↔ decide (x.toModel ≤ y.toModel) = true := Iff.rfl
  rw [hmodel, decide_eq_true_iff]
  exact Iff.rfl

theorem le_of_not_lt {x y : Float} (h : ¬y < x) (hx : x.isNaN = false) (hy : y.isNaN = false) : x ≤ y := by
  have hsome : (x.toModel.unpack.compare y.toModel.unpack).isSome = true := isSome_compare hx hy
  obtain ⟨o, ho⟩ := Option.isSome_iff_exists.1 hsome
  rw [lt_iff, compare_swap, ho] at h
  rw [le_iff, ho]
  cases o with
  | lt | eq => rfl
  | gt => exact absurd rfl h

end Binary64

def Document.Interval.IsFinite (i : Document.Interval) : Prop :=
  i.low.isFinite = true ∧ i.high.isFinite = true

namespace Variable

open Document

/-- Neither bound, or two finite ones in order. -/
def WellBounded (v : Variable) : Prop :=
  v.lower = .null ∧ v.upper = .null ∨
    ∃ i : Interval, v.lower = .float i.low ∧ v.upper = .float i.high ∧ i.IsFinite ∧ i.low ≤ i.high

def HasRange (v : Variable) : Option Interval → Prop
  | none => v.lower = .null ∧ v.upper = .null
  | some i => v.lower = .float i.low ∧ v.upper = .float i.high

end Variable

namespace Document

open Text

theorem Interval.read?_eq_some_iff {cs : List Char} {i : Interval} :
    Interval.read? cs = some i ↔ ∃ first second, cutAt ',' cs = [first, second] ∧
      Number.readFloat? (strip first) = some i.low ∧ Number.readFloat? (strip second) = some i.high ∧
      ¬i.high < i.low := by
  obtain ⟨low, high⟩ := i
  unfold Interval.read?
  split
  · next first second hcut =>
      simp only [Option.bind_eq_bind, Option.bind_eq_some_iff, Option.ite_none_left_eq_some,
        Option.some.injEq, Interval.mk.injEq]
      constructor
      · rintro ⟨x, hx, y, hy, hle, rfl, rfl⟩
        exact ⟨first, second, hcut, hx, hy, hle⟩
      · rintro ⟨first', second', hcut', hx, hy, hle⟩
        cases hcut.symm.trans hcut'
        exact ⟨low, hx, high, hy, hle, rfl, rfl⟩
  · next hcut =>
      refine iff_of_false nofun ?_
      rintro ⟨first, second, heq, -⟩
      exact hcut first second heq

open Reader (range?)

/-- The name of the variable that a line declares, and its range. -/
def declaredRange? (line : List Char) : Option (String × Option Interval) :=
  (declaration? (strip line)).map fun (name, text) => (name, range? text)

theorem le_of_range? {text : List Char} {i : Interval} (h : range? text = some i)
    (hlow : i.low.isNaN = false) (hhigh : i.high.isNaN = false) : i.low ≤ i.high := by
  obtain ⟨b, -, hread⟩ := Option.bind_eq_some_iff.1 h
  obtain ⟨-, -, -, -, -, hnot⟩ := Interval.read?_eq_some_iff.1 hread
  exact Binary64.le_of_not_lt hnot hlow hhigh

/-- Bounds that are declared are in order if they are finite. -/
theorem wellBounded_iff {v : Variable} {text : List Char} (h : v.HasRange (range? text)) :
    v.WellBounded ↔ ∀ i, range? text = some i → i.IsFinite := by
  cases hrange : range? text with
  | none =>
      rw [hrange] at h
      exact iff_of_true (.inl h) nofun
  | some i =>
      rw [hrange] at h
      obtain ⟨hlower, hupper⟩ := h
      constructor
      · rintro (⟨hnone, -⟩ | ⟨⟨low, high⟩, hlow, hhigh, hfinite, -⟩) _ ⟨⟩
        · cases hlower.symm.trans hnone
        · obtain ⟨low', high'⟩ := i
          cases hlower.symm.trans hlow
          cases hupper.symm.trans hhigh
          exact hfinite
      · intro hall
        have hfinite := hall i rfl
        exact .inr ⟨i, hlower, hupper, hfinite, le_of_range? hrange
          (Binary64.isNaN_of_isFinite hfinite.1) (Binary64.isNaN_of_isFinite hfinite.2)⟩

namespace Reader

variable {c : Catalog} {strict : Bool} {r : Reader} {scope : Option String} {name other : String}
  {v : Variable}

theorem variableAt?_addVariable {value : Value} {range : Option Interval} (home : Option String)
    (h : (r.addVariable name value range (.ofHome home) home).store.variableAt? scope other = some v) :
    r.store.variableAt? scope other = some v ∨
      other = name ∧ v.line = some (r.line : Int) ∧ v.HasRange range := by
  obtain ⟨-, hstore⟩ | ⟨registered, -, hregistered, hstore⟩ :=
    Store.addVariable_value r.store name value home _ _ _
  · rw [Reader.addVariable, hstore] at h
    exact .inl h
  · have hkept : registered.variableAt? scope other = r.store.variableAt? scope other := by
      rcases hregistered with rfl | ⟨-, rfl⟩
      · rfl
      · exact Store.variableAt?_withName ..
    rw [Reader.addVariable, hstore, Store.variableAt?_placeVariable] at h
    split at h
    · next hhere =>
        cases h
        refine .inr ⟨hhere.2, rfl, ?_⟩
        cases range with
        | none => exact ⟨rfl, rfl⟩
        | some i => exact ⟨rfl, rfl⟩
    · exact .inl (hkept ▸ h)

theorem variableAt?_declareHere {value : Value} {range : Option Interval}
    (h : (r.declareHere c name value range).store.variableAt? scope other = some v) :
    r.store.variableAt? scope other = some v ∨
      other = name ∧ v.line = some (r.line : Int) ∧ v.HasRange range := by
  simp only [declareHere] at h
  split at h
  · rw [store_declareGlobal] at h
    exact variableAt?_addVariable none h
  · next frame hscope =>
      simp only [declareIn] at h
      split at h
      · exact variableAt?_addVariable (some frame.key) h
      · left
        split at h
        · exact h
        · split at h
          · exact h
          · have hkeeps := r.store.keeps_setOverride name (.value value) frame.key
            rw [← hkeeps.variableAt?_eq]
            split at h <;> exact h

theorem variableAt?_declare {content : List Char}
    (h : (r.declare c content).store.variableAt? scope other = some v) :
    r.store.variableAt? scope other = some v ∨
      ∃ text, declaration? content = some (other, text) ∧ v.line = some (r.line : Int) ∧
        v.HasRange (range? text) := by
  cases hparts : declaration? content with
  | none =>
      simp only [declare, hparts] at h
      exact .inl h
  | some parts =>
      obtain ⟨name, text⟩ := parts
      obtain ⟨told, htold, hdeclare⟩ := declare_of_some (c := c) (r := r) hparts
      have hsame : told.store = r.store ∧ told.line = r.line := by
        rcases htold with rfl | ⟨complaint, -, rfl⟩ <;> exact ⟨rfl, rfl⟩
      rw [hdeclare] at h
      have hcases := variableAt?_declareHere h
      rw [hsame.1, hsame.2] at hcases
      obtain hkept | ⟨rfl, hline, hrange⟩ := hcases
      · exact .inl hkept
      · exact .inr ⟨text, rfl, hline, hrange⟩

theorem variableAt?_step {line : List Char}
    (h : (r.step c strict line).store.variableAt? scope other = some v) :
    r.store.variableAt? scope other = some v ∨
      ∃ range, declaredRange? line = some (other, range) ∧ v.line = some (r.line + 1 : Nat) ∧
        v.HasRange range := by
  cases hpasses : r.passes line with
  | true =>
      rw [step_of_passes hpasses] at h
      exact .inl h
  | false =>
      rw [step_of_not_passes hpasses] at h
      have heffect := @effect_dispatch c strict (r.ready line) (indentOf line) (strip line)
      have hready : (r.ready line).store = r.store ∧ (r.ready line).line = r.line + 1 := by
        rw [ready, settle_eq]
        exact ⟨rfl, rfl⟩
      cases hkind : (r.ready line).classify c (indentOf line) (String.ofList (firstWord (strip line))) with
      | declaration =>
          rw [dispatch, hkind] at h
          have hcases := variableAt?_declare h
          rw [hready.1, hready.2] at hcases
          obtain hkept | ⟨text, hparts, hline, hrange⟩ := hcases
          · exact .inl hkept
          · exact .inr ⟨range? text, by rw [declaredRange?, hparts]; rfl, hline, hrange⟩
      | trigger | modulation | assignment | component =>
          have hsame := heffect.sameVariables (by simp [hkind])
          rw [hsame.variableAt?_eq, hready.1] at h
          exact .inl h

def RangesFrom (lines : List (List Char)) (s : Store) : Prop :=
  ∀ ⦃scope name v⦄, s.variableAt? scope name = some v →
    ∃ n range, v.line = some (n + 1 : Nat) ∧ lines[n]?.bind declaredRange? = some (name, range) ∧
      v.HasRange range

theorem RangesFrom.step {seen : List (List Char)} (h : RangesFrom seen r.store)
    (hline : r.line = seen.length) (c : Catalog) (strict : Bool) (line : List Char) :
    RangesFrom (seen ++ [line]) (r.step c strict line).store := by
  intro scope name v hv
  obtain hkept | ⟨range, hdeclared, hnumber, hrange⟩ := variableAt?_step hv
  · obtain ⟨n, range, hnumber, hdeclared, hrange⟩ := h hkept
    obtain ⟨earlier, hearlier, hparts⟩ := Option.bind_eq_some_iff.1 hdeclared
    obtain ⟨hn, -⟩ := List.getElem?_eq_some_iff.1 hearlier
    refine ⟨n, range, hnumber, ?_, hrange⟩
    rw [List.getElem?_append_left hn, hdeclared]
  · exact ⟨r.line, range, hnumber, by rw [hline, List.getElem?_concat_length]; exact hdeclared, hrange⟩

theorem rangesFrom_readLines (c : Catalog) (strict : Bool) (lines : List (List Char)) :
    ∀ {seen r}, RangesFrom seen r.store → r.line = seen.length →
      RangesFrom (seen ++ lines) (readLines c strict r lines).store := by
  induction lines with
  | nil =>
      intro seen r h _
      rw [List.append_nil]
      exact h
  | cons line rest ih =>
      intro seen r h hline
      have htail := ih (h.step hline c strict line)
        (by rw [line_step, hline, List.length_append, List.length_singleton])
      rw [List.append_assoc] at htail
      exact htail

theorem rangesFrom_read (c : Catalog) (strict : Bool) (document : String) :
    RangesFrom (Text.lines document.toList) (read c strict document).store := by
  have hstart : RangesFrom [] start.store := by
    intro scope name v hv
    cases scope <;> cases hv
  have hread := rangesFrom_readLines c strict (Text.lines document.toList) hstart rfl
  intro scope name v hv
  rw [read, (sameVariables_conclude c strict _).variableAt?_eq] at hv
  exact hread hv

end Reader

end Document

namespace Snapshot

def toldVariable? (data : Datum) (scope : Option String) (name : String) : Option Datum :=
  match scope with
  | none => ((data.field "variables").field "global").field? name
  | some key => (((data.field "variables").field "triggers").field key).field? name

theorem field?_of_table {α : Type} {f : α → Except DatumError Datum} {t : Table α} {data : Datum}
    (h : table f t = .ok data) {key : String} {a : α} (ha : t.get? key = some a) :
    ∃ told, data.field? key = some told ∧ f a = .ok told := by
  obtain ⟨fields, hfields, rfl⟩ := table_eq_ok_iff.1 h
  obtain ⟨entries, hdistinct⟩ := t
  simp only [Table.get?, Datum.field?] at ha hfields ⊢
  clear h hdistinct
  induction hfields with
  | nil => cases ha
  | @cons p q entries fields hpq _ ih =>
      obtain ⟨k, b⟩ := p
      obtain ⟨k', told⟩ := q
      obtain ⟨rfl, htold⟩ := hpq
      rw [Table.lookup_cons_ite] at ha ⊢
      split at ha
      · next hkey =>
          cases ha
          exact ⟨told, if_pos hkey, htold⟩
      · next hkey =>
          rw [if_neg hkey]
          exact ih ha

theorem fields_variableData {v : Variable} {told : Datum} (h : variableData v = .ok told) :
    told.field "min" = v.lower ∧ told.field "max" = v.upper := by
  obtain ⟨content, -, h⟩ := Expr.bind_eq_ok.mp h
  cases h
  exact ⟨rfl, rfl⟩

theorem bounds_told {s : Store} {data : Datum} (h : s.snapshot = .ok data) {scope : Option String}
    {name : String} {v : Variable} (hv : s.variableAt? scope name = some v) :
    ∃ told, toldVariable? data scope name = some told ∧ told.field "min" = v.lower ∧
      told.field "max" = v.upper := by
  obtain ⟨components, -, h⟩ := Expr.bind_eq_ok.mp h
  obtain ⟨triggers, -, h⟩ := Expr.bind_eq_ok.mp h
  obtain ⟨declared, hdeclared, h⟩ := Expr.bind_eq_ok.mp h
  obtain ⟨owned, howned, h⟩ := Expr.bind_eq_ok.mp h
  cases h
  cases scope with
  | none =>
      obtain ⟨told, hfield, hdata⟩ := field?_of_table hdeclared hv
      exact ⟨told, hfield, fields_variableData hdata⟩
  | some key =>
      rw [← Store.local?_eq, Store.local?] at hv
      obtain ⟨t, ht, hv⟩ := Option.bind_eq_some_iff.1 hv
      obtain ⟨tables, hfield, htables⟩ := field?_of_table howned ht
      obtain ⟨told, htold, hdata⟩ := field?_of_table htables hv
      have hkey : owned.field key = tables := by
        rw [Datum.field, hfield]
        rfl
      refine ⟨told, ?_, fields_variableData hdata⟩
      rw [← hkey] at htold
      exact htold

end Snapshot

namespace Document

variable {c : Catalog} {strict : Bool} {document name : String} {scope : Option String} {v : Variable}

/-- Every variable that is stored after a document was read has the range of a line that declares it, or
no bounds where no range can be read there; and the data of the store tell what it has. The ends of a range
are in order unless one of them is no number. So a variable has neither bound or two finite ones in order,
but for lines with an infinity or what is no number in the brackets. -/
theorem bounds_as_declared (hv : (read c strict document).store.variableAt? scope name = some v) :
    ∃ n range, v.line = some (n + 1 : Nat) ∧
      (Text.lines document.toList)[n]?.bind declaredRange? = some (name, range) ∧ v.HasRange range ∧
      (∀ i, range = some i → i.low.isNaN = false → i.high.isNaN = false → i.low ≤ i.high) ∧
      (v.WellBounded ↔ ∀ i, range = some i → i.IsFinite) ∧
      ∀ data, (read c strict document).store.snapshot = .ok data →
        ∃ told, Snapshot.toldVariable? data scope name = some told ∧ told.field "min" = v.lower ∧
          told.field "max" = v.upper := by
  obtain ⟨n, range, hline, hdeclared, hrange⟩ := Reader.rangesFrom_read c strict document hv
  obtain ⟨line, -, hparts⟩ := Option.bind_eq_some_iff.1 hdeclared
  obtain ⟨⟨declared, text⟩, -, heq⟩ := Option.map_eq_some_iff.1 hparts
  cases heq
  exact ⟨n, _, hline, hdeclared, hrange, fun i => le_of_range?, wellBounded_iff hrange,
    fun data hdata => Snapshot.bounds_told hdata hv⟩

def rangedText : String := "note c4\n  variable depth = 2 [-1_0, 1e2]"

theorem bounds_as_declared_ranged :
    ∃ v i, (read shippedCatalog false rangedText).store.variableAt? (some "note_c4") "depth" = some v ∧
      v.HasRange (some i) ∧ v.WellBounded := by
  have hstored : ((read shippedCatalog false rangedText).store.variableAt? (some "note_c4") "depth").any
      (!·.lower.isNull) = true := by decide +kernel
  have hfinite : ((Text.lines rangedText.toList).filterMap declaredRange?).all
      (·.2.all fun i => i.low.isFinite && i.high.isFinite) = true := by decide +kernel
  obtain ⟨v, hv, hlower⟩ := (Option.any_eq_true _ _).1 hstored
  obtain ⟨n, range, -, hdeclared, hrange, -, hbounded, -⟩ := bounds_as_declared hv
  cases range with
  | none =>
      rw [hrange.1] at hlower
      cases hlower
  | some i =>
      refine ⟨v, i, hv, hrange, hbounded.2 ?_⟩
      rintro _ ⟨⟩
      obtain ⟨line, hline, hparts⟩ := Option.bind_eq_some_iff.1 hdeclared
      have hmem := List.mem_filterMap.2 ⟨line, List.mem_of_getElem? hline, hparts⟩
      have hboth := List.all_eq_true.1 hfinite _ hmem
      rwa [Option.all_some, Bool.and_eq_true] at hboth

/-- What is no number can begin a range, since no number is less than it, and then it is a bound. -/
theorem bounds_not_always_finite :
    ¬∀ (c : Catalog) (strict : Bool) (document : String) (scope : Option String) (name : String)
        (v : Variable), (read c strict document).store.variableAt? scope name = some v → v.WellBounded := by
  intro hbounded
  have hstored : ((read shippedCatalog false "variable x = 5 [nan, 3]").store.variableAt? none "x").any
      (·.lower.toNumber?.any (·.isNaN)) = true := by decide +kernel
  obtain ⟨v, hv, hnan⟩ := (Option.any_eq_true _ _).1 hstored
  obtain ⟨hnone, -⟩ | ⟨i, hlower, -, hfinite, -⟩ := hbounded _ _ _ _ _ v hv
  · rw [hnone] at hnan
    cases hnan
  · rw [hlower] at hnan
    cases hnan.symm.trans (Binary64.isNaN_of_isFinite hfinite.1)

end Document

end Instrument
