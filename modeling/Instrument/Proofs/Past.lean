import Instrument.Proofs.Cursors

namespace Instrument.Document.Reader

open Text

theorem settle_eq (indent : Nat) (r : Reader) : r.settle indent =
    { r with
      frames := r.frames.dropWhile (indent ≤ ·.indent)
      component := if r.closes indent then none else r.component.filter (·.indent < indent)
      trigger :=
        if r.closes indent then
          (r.frames.dropWhile (indent ≤ ·.indent)).head?.filter (!·.isGlobal)
        else r.trigger
      attr := if r.closes indent then none else r.attr.filter (·.indent < indent)
      skip := none } := by
  rw [settle, closeFrames]
  by_cases h : r.closes indent = true
  · have hlt := length_dropWhile_lt.2 h
    simp only [if_pos h, if_pos hlt]
    rfl
  · have hlt : ¬(r.frames.dropWhile (indent ≤ ·.indent)).length < r.frames.length :=
      fun hlt => h (length_dropWhile_lt.1 hlt)
    simp only [if_neg h, if_neg hlt]

theorem settle_congr (indent : Nat) (r : Reader) (skip : Option Nat) (line : Nat)
    (issues : List Issue) (notes : List Note) :
    ({ r with skip, line, issues, notes } : Reader).settle indent =
      { r.settle indent with line, issues, notes } := by
  rw [settle_eq, settle_eq]
  rfl

theorem closes_of_le {first second : Nat} (h : second ≤ first) {r : Reader}
    (hcloses : r.closes first = true) : r.closes second = true := by
  have hmin := closes_min first second r
  rw [Nat.min_eq_right h, hcloses, Bool.true_or] at hmin
  exact hmin

theorem dropWhile_dropWhile_of_le {first second : Nat} (h : second ≤ first) (frames : List Frame) :
    (frames.dropWhile (first ≤ ·.indent)).dropWhile (second ≤ ·.indent) =
      frames.dropWhile (second ≤ ·.indent) := by
  have hsettle := frames_settle_settle first second { start with frames }
  rwa [Nat.min_eq_right h, frames_settle, frames_settle, frames_settle] at hsettle

theorem filter_filter_of_le {α : Type} {indent : α → Nat} {first second : Nat} (h : second ≤ first)
    (cursor : Option α) :
    (cursor.filter (indent · < first)).filter (indent · < second) =
      cursor.filter (indent · < second) := by
  cases cursor with
  | none => rfl
  | some x =>
      by_cases hx : indent x < second
      · have hx' : indent x < first := Nat.lt_of_lt_of_le hx h
        simp [Option.filter_some, hx, hx']
      · by_cases hx' : indent x < first
        · simp [Option.filter_some, hx']
        · simp [Option.filter_some, hx, hx']

/-- What a line closes, one that is indented no deeper would have closed too. -/
theorem settle_settle {first second : Nat} (h : second ≤ first) (r : Reader) :
    (r.settle first).settle second = r.settle second := by
  have hframes := dropWhile_dropWhile_of_le h r.frames
  cases hfirst : r.closes first with
  | true =>
      have hsecond := closes_of_le h hfirst
      rw [settle_eq second (r.settle first), settle_eq first, settle_eq second r]
      simp only [hfirst, hsecond, if_true, hframes, Option.filter_none, ite_self]
      congr 1
      split
      · rfl
      · next hkept =>
          have hsame := frames_of_not_closes (eq_false_of_ne_true hkept)
          rw [frames_settle] at hsame
          rw [← hframes, hsame]
  | false =>
      have hsecond : (r.settle first).closes second = r.closes second := by
        rw [closes, closes, frames_of_not_closes hfirst]
      rw [settle_eq second (r.settle first), hsecond, settle_eq first, settle_eq second r]
      simp only [hfirst, Bool.false_eq_true, if_false, hframes]
      rw [filter_filter_of_le h, filter_filter_of_le h]

/-- The reader with issues and notes from before. -/
def withPast (issues : List Issue) (notes : List Note) (r : Reader) : Reader :=
  { r with issues := issues ++ r.issues, notes := notes ++ r.notes }

section Past

variable (issues : List Issue) (notes : List Note) (r : Reader) (c : Catalog) (strict : Bool)

@[simp] theorem complainAt_withPast (line : Nat) (complaint : Complaint) :
    (r.withPast issues notes).complainAt line complaint =
      (r.complainAt line complaint).withPast issues notes := by
  simp [complainAt, withPast]

@[simp] theorem complain_withPast (complaint : Complaint) :
    (r.withPast issues notes).complain complaint = (r.complain complaint).withPast issues notes :=
  complainAt_withPast ..

@[simp] theorem complainAll_withPast (complaints : List Complaint) :
    (r.withPast issues notes).complainAll complaints =
      (r.complainAll complaints).withPast issues notes := by
  simp [complainAll_eq, withPast]

@[simp] theorem refuse_withPast (indent : Nat) (complaint : Complaint) :
    (r.withPast issues notes).refuse indent complaint =
      (r.refuse indent complaint).withPast issues notes := by
  simp only [refuse, complain_withPast]
  rfl

@[simp] theorem follow_withPast {α : Type} (outcome : Outcome α) :
    (r.withPast issues notes).follow outcome = (r.follow outcome).withPast issues notes := by
  simp [follow, withPast]

@[simp] theorem store_withPast : (r.withPast issues notes).store = r.store := rfl

@[simp] theorem scope_withPast : (r.withPast issues notes).scope = r.scope := rfl

@[simp] theorem owner_withPast : (r.withPast issues notes).owner = r.owner := rfl

theorem settle_withPast (indent : Nat) :
    (r.withPast issues notes).settle indent = (r.settle indent).withPast issues notes := by
  rw [settle_eq, settle_eq]
  rfl

theorem ready_withPast (line : List Char) :
    (r.withPast issues notes).ready line = (r.ready line).withPast issues notes :=
  settle_withPast issues notes { r with line := r.line + 1 } (indentOf line)

theorem declareGlobal_withPast (name : String) (value : Value) (range : Option Interval) :
    (r.withPast issues notes).declareGlobal name value range =
      (r.declareGlobal name value range).withPast issues notes := by
  have hadd : (r.withPast issues notes).addVariable name value range .global none =
      r.addVariable name value range .global none := rfl
  simp only [declareGlobal, hadd]
  split <;> simp

theorem declareIn_withPast (frame : Frame) (name : String) (value : Value)
    (range : Option Interval) :
    (r.withPast issues notes).declareIn c frame name value range =
      (r.declareIn c frame name value range).withPast issues notes := by
  have hadd : (r.withPast issues notes).addVariable name value range .trigger (some frame.key) =
      r.addVariable name value range .trigger (some frame.key) := rfl
  simp only [declareIn, hadd, store_withPast]
  split
  · simp
  · split
    · simp
    · split
      · simp
      · split <;> simp

theorem declareHere_withPast (name : String) (value : Value) (range : Option Interval) :
    (r.withPast issues notes).declareHere c name value range =
      (r.declareHere c name value range).withPast issues notes := by
  simp only [declareHere, scope_withPast]
  split
  · exact declareGlobal_withPast ..
  · exact declareIn_withPast ..

theorem declare_withPast (content : List Char) :
    (r.withPast issues notes).declare c content = (r.declare c content).withPast issues notes := by
  have hvalue (text : List Char) :
      (r.withPast issues notes).variableValue text = r.variableValue text := rfl
  cases hparts : declaration? content with
  | none => simp only [declare, hparts, complain_withPast]
  | some parts =>
      cases hbrackets : bracketed? parts.2 with
      | none =>
          simp only [declare, hparts, hbrackets, hvalue]
          exact declareHere_withPast ..
      | some brackets =>
          cases hrange : Interval.read? brackets.inside with
          | none =>
              simp only [declare, hparts, hbrackets, hvalue, Option.bind_some, hrange,
                complain_withPast]
              exact declareHere_withPast ..
          | some range =>
              simp only [declare, hparts, hbrackets, hvalue, Option.bind_some, hrange]
              exact declareHere_withPast ..

theorem openTrigger_withPast (indent : Nat) (content : List Char) :
    (r.withPast issues notes).openTrigger c indent content =
      (r.openTrigger c indent content).withPast issues notes := by
  have henter (told : Reader) (kind : String) (name : Option String) :
      (told.withPast issues notes).enter kind name indent =
        (told.enter kind name indent).withPast issues notes := rfl
  simp only [openTrigger]
  repeat' split
  all_goals simp [henter]

theorem openComponent_withPast (indent : Nat) (content : List Char) :
    (r.withPast issues notes).openComponent c indent content =
      (r.openComponent c indent content).withPast issues notes := by
  have hadd (kind name : String) (scope : ScopeKind) (key : Option String) :
      (r.withPast issues notes).addComponent kind name indent scope key =
        (r.addComponent kind name indent scope key).withPast issues notes := by
    simp only [addComponent, store_withPast]
    split
    · simp only [follow_withPast]
      rfl
    · simp
  simp only [openComponent, scope_withPast]
  repeat' split
  all_goals simp [hadd]

theorem assignLine_withPast (indent : Nat) (content : List Char) :
    (r.withPast issues notes).assignLine c strict indent content =
      (r.assignLine c strict indent content).withPast issues notes := by
  have hwrite (owner : Owner) (attr : String) (text : List Char) :
      (r.withPast issues notes).writeLine c strict indent owner attr text =
        (r.writeLine c strict indent owner attr text).withPast issues notes := by
    simp only [writeLine, store_withPast]
    split
    · simp only [complain_withPast, complainAll_withPast]
      rfl
    · simp only [complainAll_withPast]
      rfl
  simp only [assignLine, owner_withPast]
  repeat' split
  all_goals simp [hwrite]

theorem modulate_withPast (content : List Char) :
    (r.withPast issues notes).modulate content = (r.modulate content).withPast issues notes := by
  have hattach (name : String) :
      (r.withPast issues notes).attach name = (r.attach name).withPast issues notes := by
    have hattr : (r.withPast issues notes).attr = r.attr := rfl
    simp only [attach, hattr]
    split
    · simp
    · rfl
  simp only [modulate]
  repeat' split
  all_goals simp [hattach]

theorem dispatch_withPast (indent : Nat) (content : List Char) :
    (r.withPast issues notes).dispatch c strict indent content =
      (r.dispatch c strict indent content).withPast issues notes := by
  have hkind (word : String) :
      (r.withPast issues notes).classify c indent word = r.classify c indent word := rfl
  simp only [dispatch, hkind]
  cases r.classify c indent (String.ofList (firstWord content)) with
  | declaration => exact declare_withPast ..
  | trigger => exact openTrigger_withPast ..
  | modulation => exact modulate_withPast ..
  | assignment => exact assignLine_withPast ..
  | component => exact openComponent_withPast ..

theorem step_withPast (line : List Char) :
    (r.withPast issues notes).step c strict line = (r.step c strict line).withPast issues notes := by
  have hpasses : (r.withPast issues notes).passes line = r.passes line := rfl
  cases h : r.passes line with
  | true =>
      rw [step_of_passes h, step_of_passes (hpasses.trans h)]
      rfl
  | false =>
      rw [step_of_not_passes h, step_of_not_passes (hpasses.trans h), ready_withPast,
        dispatch_withPast]

theorem readLines_withPast (lines : List (List Char)) :
    readLines c strict (r.withPast issues notes) lines =
      (readLines c strict r lines).withPast issues notes := by
  induction lines generalizing r with
  | nil => rfl
  | cons line rest ih =>
      change readLines c strict ((r.withPast issues notes).step c strict line) rest = _
      rw [step_withPast, ih]
      rfl

end Past

section Count

variable {c : Catalog} {strict : Bool} {r : Reader}

theorem line_declareHere (name : String) (value : Value) (range : Option Interval) :
    (r.declareHere c name value range).line = r.line := by
  simp only [declareHere, declareGlobal, declareIn]
  repeat' split
  all_goals rfl

theorem line_writeLine (indent : Nat) (owner : Owner) (attr : String) (text : List Char) :
    (r.writeLine c strict indent owner attr text).line = r.line := by
  simp only [writeLine, complainAll_eq]
  split <;> rfl

theorem line_dispatch (indent : Nat) (content : List Char) :
    (r.dispatch c strict indent content).line = r.line := by
  rw [dispatch]
  cases r.classify c indent (String.ofList (firstWord content)) with
  | declaration =>
      simp only [act]
      obtain h | ⟨name, value, range, told, htold, h⟩ := declare_cases c content r
      · rw [h]
        rfl
      · rw [h, line_declareHere]
        rcases htold with rfl | ⟨complaint, rfl⟩ <;> rfl
  | trigger =>
      simp only [act]
      obtain ⟨-, complaint, h⟩ | ⟨frame, told, -, htold, h⟩ := openTrigger_cases c indent content r
      · rw [h]
        rfl
      · rw [h]
        rcases htold with rfl | ⟨complaint, rfl⟩ <;> rfl
  | modulation =>
      simp only [act, modulate, attach]
      repeat' split
      all_goals rfl
  | assignment =>
      simp only [act]
      obtain ⟨complaint, h⟩ | ⟨owner, attr, text, -, h⟩ := assignLine_cases c strict indent content r
      · rw [h]
        rfl
      · rw [h, line_writeLine]
  | component =>
      simp only [act]
      obtain ⟨-, h⟩ | ⟨told, complaint, htold, h⟩ := openComponent_cases c indent content r
      · rw [h]
        rfl
      · rw [h]
        rcases htold with rfl | ⟨outcome, -, rfl⟩ <;> rfl

theorem line_step (line : List Char) : (r.step c strict line).line = r.line + 1 := by
  cases h : r.passes line with
  | true => rw [step_of_passes h]
  | false =>
      rw [step_of_not_passes h, line_dispatch, ready, settle_eq]

theorem line_readLines (lines : List (List Char)) :
    (readLines c strict r lines).line = r.line + lines.length := by
  induction lines generalizing r with
  | nil => rfl
  | cons line rest ih =>
      change (readLines c strict (r.step c strict line) rest).line = _
      rw [ih, line_step, List.length_cons]
      omega

end Count

end Instrument.Document.Reader
