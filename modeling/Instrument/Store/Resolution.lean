import Instrument.Store.Attributes
import Instrument.Store.Variables

namespace Instrument

/-- Why a resolution stops short, without so much as nothing for an answer: a number that is too large
or too long, or a datum that no document can have put there. -/
inductive Halt
  | escape (e : Expr.Escape)
  | unusableName (d : Datum)
  | unreadableSource (d : Datum)

def Halt.message : Halt → String
  | escape e => e.message
  | unusableName d => "unhashable type: '" ++ d.typeName ++ "'"
  | unreadableSource d =>
    match d with
    | .list _ | .record _ =>
      "expected string or bytes-like object, got '" ++ d.typeName ++ "'"
    | _ => "object of type '" ++ d.typeName ++ "' has no len()"

/-- Results that may fail to come, with the notes made on the way. -/
abbrev Resolving (α : Type) : Type := ExceptT Halt Noted α

namespace Resolving

def note (n : Note) : Resolving Unit := ExceptT.lift (Noted.note n)

/-- What is found under a datum that is no text: nothing, if it can be a name at all. -/
def nameless (d : Datum) : Resolving (Option Datum) :=
  match d.keyFault? with
  | some part => throw (.unusableName part)
  | none => pure none

def evaluate (lookup : String → Resolving (Option Datum)) (source : Datum) :
    Resolving (Except Expr.Failure Datum) :=
  match source with
  | .text s => Expr.evaluateM lookup s
  | .list [] | .record [] => pure (Expr.evaluateTokens source.shown [.ending 0])
  | d => throw (.unreadableSource d)

end Resolving

namespace Store

def namesIn (s : Store) (key : Option String) : List String :=
  let scope := key.getD ""
  (match s.trigger? scope with | some t => t.overrides.keys | none => [])
    ++ (match s.localVariables.get? scope with | some t => t.keys | none => [])
    ++ s.globalVariables.keys

theorem mem_namesIn_of_effective? {s : Store} {name : String} {key : Option String} {v : Value}
    (h : s.effective? name key = some v) : name ∈ s.namesIn key := by
  have hglobal : s.globalValue? name = some v → name ∈ s.globalVariables.keys := by
    intro hg
    rw [Table.mem_keys_iff]
    cases hv : s.globalVariables.get? name with
    | none => simp [globalValue?, hv] at hg
    | some _ => rfl
  simp only [namesIn, List.mem_append]
  rw [effective?] at h
  cases hkey : key.filter (· != "") with
  | none => rw [hkey] at h; exact .inr (hglobal h)
  | some scope =>
    have hscope : key.getD "" = scope := by
      cases key with
      | none => simp at hkey
      | some k => simp_all [Option.filter_eq_some_iff]
    rw [hkey] at h
    simp only at h
    rw [hscope]
    cases ho : s.override? name scope with
    | some o =>
      refine .inl (.inl ?_)
      rw [override?] at ho
      cases ht : s.trigger? scope with
      | none => simp [ht] at ho
      | some t =>
        rw [ht] at ho
        simp only [Option.bind_some] at ho
        simp [Table.mem_keys_iff, ho]
    | none =>
      rw [ho] at h
      cases hl : s.local? name scope with
      | some w =>
        refine .inl (.inr ?_)
        rw [local?] at hl
        cases ht : s.localVariables.get? scope with
        | none => simp [ht] at hl
        | some t =>
          rw [ht] at hl
          simp only [Option.bind_some] at hl
          simp [Table.mem_keys_iff, hl]
      | none => rw [hl] at h; exact .inr (hglobal h)

def remaining (s : Store) (key : Option String) (busy : List String) : Nat :=
  (s.namesIn key).countP fun name => !busy.contains name

theorem remaining_cons_lt {s : Store} {key : Option String} {busy : List String} {name : String}
    (hmem : name ∈ s.namesIn key) (hbusy : name ∉ busy) :
    s.remaining key (name :: busy) < s.remaining key busy := by
  simp only [remaining]
  generalize s.namesIn key = names at hmem
  induction names with
  | nil => simp at hmem
  | cons other rest ih =>
    have hle : rest.countP (fun n => !(name :: busy).contains n)
        ≤ rest.countP (fun n => !busy.contains n) :=
      List.countP_mono_left fun n _ hn => by simp_all
    rw [List.countP_cons, List.countP_cons]
    by_cases h : other = name
    · subst h
      simp [hbusy] at hle ⊢
      omega
    · have ih := ih (by simpa [Ne.symm h] using hmem)
      by_cases hb : other ∈ busy
      · simpa [h, hb] using ih
      · simpa [h, hb] using ih

/-- What a failed evaluation leaves: nothing, with a note, unless the expression is not at fault. -/
def orNothing (note : Expr.EvalError → Note) (result : Except Expr.Failure Datum) :
    Resolving (Option Datum) :=
  match result with
  | .ok d => pure (some d)
  | .error (.escape e) => throw (.escape e)
  | .error (.invalid e) => do
    Resolving.note (note e)
    return none

/-- The value of a variable in a scope, `busy` being the names that are being resolved. A name has no
value for itself, so that a cycle of references gives none; one that is merely used twice has its value
twice. The resolution ends because the names in `busy` are distinct and all have a value in the
store. -/
def resolve (s : Store) (key : Option String) (busy : List String) (name : String) :
    Resolving (Option Datum) :=
  match _hv : s.effective? name key with
  | some (.literal .null) => pure none
  | some (.literal d) => pure (some d)
  | some (.variableRef other) =>
    if _hbusy : name ∈ busy then do
      Resolving.note (.selfReference name)
      return none
    else match other with
      | .text other => resolve s key (name :: busy) other
      | other => Resolving.nameless other
  | some (.expression source) =>
    if _hbusy : name ∈ busy then do
      Resolving.note (.selfReference name)
      return none
    else do
      let result ← Resolving.evaluate (fun other => resolve s key (name :: busy) other) source
      orNothing (.variableFailed name) result
  | _ => pure none
termination_by s.remaining key busy
decreasing_by
  · exact remaining_cons_lt (mem_namesIn_of_effective? _hv) _hbusy
  · exact remaining_cons_lt (mem_namesIn_of_effective? _hv) _hbusy

/-- The value of a variable seen from a scope: that of the trigger for it, that of a variable of the
trigger, or that of a global one. -/
def resolveVariable (s : Store) (name : String) (key : Option String) :
    Resolving (Option Datum) :=
  s.resolve key [] name

def resolveNamed (s : Store) (name : Datum) (key : Option String) : Resolving (Option Datum) :=
  match name with
  | .text name => s.resolveVariable name key
  | name => Resolving.nameless name

/-- A variable's own value, whatever triggers give to it. -/
def variableValue (s : Store) (name : String) : Resolving (Option Datum) :=
  match s.findVariable? name with
  | none => pure none
  | some v => match v.value with
    | some (.literal d) => pure (some d)
    | _ => s.resolveVariable name v.key

/-- The number, text or component that an attribute value comes to, or what is given for the lack of
one. -/
def resolveValue (s : Store) (v : Value) (key : Option String) (fallback : Datum) :
    Resolving Datum :=
  match v with
  | .literal d => pure d
  | .componentRef ref => pure (.value (.componentRef ref))
  | .variableRef name => do return (← s.resolveNamed name key).getD fallback
  | .expression source => do
    let result ← Resolving.evaluate (s.resolveVariable · key) source
    return (← orNothing (.expressionFailed source.shown) result).getD fallback
  | .unresolved _ => pure fallback

def resolveGiven (s : Store) (v : Option Value) (key : Option String) (fallback : Datum) :
    Resolving Datum :=
  match v with
  | none => pure fallback
  | some v => s.resolveValue v key fallback

def resolveAttribute (s : Store) (a : Attribute) (key : Option String) (fallback : Datum) :
    Resolving Datum :=
  s.resolveGiven a.value key fallback

end Store

end Instrument
