import Instrument.Proofs.LineCells

namespace Instrument

namespace Store

variable {s t : Store} {name : String}

theorem addVariable_value_eq (s : Store) (name : String) (v : Value) (scope : ScopeKind)
    (key : Option String) (lower upper : Datum) (line : Option Int) :
    s.addVariable name (.value v) scope key lower upper line =
      if scope.lacksKey key then .failed s .variableWithoutKey
      else if s.renews name scope key then
        .done (s.placeVariable ⟨name, some v, scope, scope.keyFor key, lower, upper, line⟩) true
      else if s.isRegistered name then .refused s name
      else .done ((s.withName name ⟨scope, variableKind, scope.keyFor key⟩).placeVariable
        ⟨name, some v, scope, scope.keyFor key, lower, upper, line⟩) true := by
  simp only [addVariable, register?]
  by_cases hrenews : s.renews name scope key = true
  · rw [if_pos hrenews, if_pos hrenews]
    rfl
  · rw [if_neg hrenews, if_neg hrenews]
    by_cases htaken : s.isRegistered name = true
    · rw [if_pos htaken, if_pos htaken]
    · rw [if_neg htaken, if_neg htaken]
      rfl

theorem addComponent_bare_eq (s : Store) (kind name : String) (scope : ScopeKind) (key : Option String) :
    s.addComponent kind name scope key [] =
      if scope.lacksKey key then .failed s .componentWithoutKey
      else if s.isRegistered name then .refused s name
      else .done ((s.withName name ⟨scope, kind, key⟩).placeComponent
        { kind, name, scope, key := scope.keyFor key, attributes := .empty }) true := by
  simp only [addComponent, register?]
  by_cases htaken : s.isRegistered name = true
  · rw [if_pos htaken, if_pos htaken]
  · rw [if_neg htaken, if_neg htaken]
    rfl

theorem isRegistered_congr (h : t.nameInfo? name = s.nameInfo? name) :
    t.isRegistered name = s.isRegistered name :=
  congrArg Option.isSome h

theorem renews_congr (h : t.nameInfo? name = s.nameInfo? name) (scope : ScopeKind) (key : Option String) :
    t.renews name scope key = s.renews name scope key := by
  rw [renews, renews, h]

theorem addVariable_congr (h : t.nameInfo? name = s.nameInfo? name) (v v' : Value)
    (scope : ScopeKind) (key : Option String) (lower upper lower' upper' : Datum) (line line' : Option Int) :
    (t.addVariable name (.value v') scope key lower' upper' line').answer =
        (s.addVariable name (.value v) scope key lower upper line).answer ∧
      ∀ other, t.nameInfo? other = s.nameInfo? other →
        (t.addVariable name (.value v') scope key lower' upper' line').store.nameInfo? other =
          (s.addVariable name (.value v) scope key lower upper line).store.nameInfo? other := by
  rw [addVariable_value_eq, addVariable_value_eq, isRegistered_congr h, renews_congr h]
  split
  · exact ⟨rfl, fun _ hother => hother⟩
  · split
    · exact ⟨rfl, by simp⟩
    · split
      · exact ⟨rfl, fun _ hother => hother⟩
      · exact ⟨rfl, by simp +contextual [nameInfo?_withName]⟩

theorem addComponent_congr (h : t.nameInfo? name = s.nameInfo? name) (kind : String)
    (scope : ScopeKind) (key : Option String) :
    (t.addComponent kind name scope key []).answer = (s.addComponent kind name scope key []).answer ∧
      ∀ other, t.nameInfo? other = s.nameInfo? other →
        (t.addComponent kind name scope key []).store.nameInfo? other =
          (s.addComponent kind name scope key []).store.nameInfo? other := by
  rw [addComponent_bare_eq, addComponent_bare_eq, isRegistered_congr h]
  split
  · exact ⟨rfl, fun _ hother => hother⟩
  · split
    · exact ⟨rfl, fun _ hother => hother⟩
    · exact ⟨rfl, by simp +contextual [nameInfo?_withName]⟩

end Store

namespace Document.Reader

open Text

variable {c : Catalog} {strict : Bool} {r r' s s' t t' : Reader} {N : String → Prop} {line : List Char}

/-- Two readers hold open the same, and know the same names but for some. -/
structure Abreast (N : String → Prop) (r r' : Reader) : Prop where
  frames_eq : r'.frames = r.frames
  component_eq : r'.component = r.component
  trigger_eq : r'.trigger = r.trigger
  attr_eq : r'.attr = r.attr
  skip_eq : r'.skip = r.skip
  nameInfo?_eq : ∀ name, ¬N name → r'.store.nameInfo? name = r.store.nameInfo? name

/-- Two readers come from two others by a line of which there is the same to say. -/
structure InStep (N : String → Prop) (r r' s s' : Reader) : Prop where
  abreast : Abreast N s s'
  line_eq : s.line = r.line ∧ s'.line = r'.line
  issues_eq : ∃ complaints : List Complaint, s.issues = r.issues ++ complaints.map (⟨r.line, ·⟩) ∧
    s'.issues = r'.issues ++ complaints.map (⟨r'.line, ·⟩)

theorem Abreast.refl (N : String → Prop) (r : Reader) : Abreast N r r :=
  ⟨rfl, rfl, rfl, rfl, rfl, fun _ _ => rfl⟩

theorem Abreast.trans {r'' : Reader} (h : Abreast N r r') (h' : Abreast N r' r'') : Abreast N r r'' :=
  ⟨h'.frames_eq.trans h.frames_eq, h'.component_eq.trans h.component_eq, h'.trigger_eq.trans h.trigger_eq,
    h'.attr_eq.trans h.attr_eq, h'.skip_eq.trans h.skip_eq,
    fun name hname => (h'.nameInfo?_eq name hname).trans (h.nameInfo?_eq name hname)⟩

theorem Abreast.inStep (h : Abreast N r r') : InStep N r r' r r' :=
  ⟨h, ⟨rfl, rfl⟩, [], by simp⟩

theorem InStep.then (h : InStep N r r' s s') (h' : InStep N s s' t t') : InStep N r r' t t' := by
  obtain ⟨first, hfirst, hfirst'⟩ := h.issues_eq
  obtain ⟨second, hsecond, hsecond'⟩ := h'.issues_eq
  refine ⟨h'.abreast, ⟨h'.line_eq.1.trans h.line_eq.1, h'.line_eq.2.trans h.line_eq.2⟩,
    first ++ second, ?_, ?_⟩
  · rw [hsecond, hfirst, h.line_eq.1, List.map_append, List.append_assoc]
  · rw [hsecond', hfirst', h.line_eq.2, List.map_append, List.append_assoc]

theorem Abreast.complain (h : Abreast N r r') (complaint : Complaint) :
    InStep N r r' (r.complain complaint) (r'.complain complaint) :=
  ⟨⟨h.frames_eq, h.component_eq, h.trigger_eq, h.attr_eq, h.skip_eq, h.nameInfo?_eq⟩, ⟨rfl, rfl⟩,
    [complaint], rfl, rfl⟩

theorem Abreast.refuse (h : Abreast N r r') (indent : Nat) (complaint : Complaint) :
    InStep N r r' (r.refuse indent complaint) (r'.refuse indent complaint) :=
  ⟨⟨h.frames_eq, h.component_eq, h.trigger_eq, h.attr_eq, rfl, h.nameInfo?_eq⟩, ⟨rfl, rfl⟩,
    [complaint], rfl, rfl⟩

theorem Abreast.follow {α β : Type} (h : Abreast N r r') {outcome : Outcome α} {outcome' : Outcome β}
    (hnames : ∀ other, r'.store.nameInfo? other = r.store.nameInfo? other →
      outcome'.store.nameInfo? other = outcome.store.nameInfo? other) :
    InStep N r r' (r.follow outcome) (r'.follow outcome') :=
  ⟨⟨h.frames_eq, h.component_eq, h.trigger_eq, h.attr_eq, h.skip_eq,
    fun name hname => hnames name (h.nameInfo?_eq name hname)⟩, ⟨rfl, rfl⟩, [], by simp [Reader.follow],
    by simp [Reader.follow]⟩

theorem Abreast.scope_eq (h : Abreast N r r') : r'.scope = r.scope := by
  rw [scope, scope, h.frames_eq]

theorem Abreast.owner_eq (h : Abreast N r r') : r'.owner = r.owner := by
  rw [owner, owner, h.component_eq, h.trigger_eq]

theorem Abreast.declareGlobal (h : Abreast N r r') {name : String} (hname : ¬N name) (v v' : Value)
    (range : Option Interval) :
    InStep N r r' (r.declareGlobal name v range) (r'.declareGlobal name v' range) := by
  obtain ⟨hanswer, hnames⟩ := Store.addVariable_congr (h.nameInfo?_eq name hname) v v' .global none
    ((range.map fun i => Datum.float i.low).getD .null) ((range.map fun i => Datum.float i.high).getD .null)
    ((range.map fun i => Datum.float i.low).getD .null) ((range.map fun i => Datum.float i.high).getD .null)
    (some (r.line : Int)) (some (r'.line : Int))
  have hfollow : InStep N r r' (r.follow (r.addVariable name v range .global none))
      (r'.follow (r'.addVariable name v' range .global none)) := h.follow hnames
  have hsame : (r'.addVariable name v' range .global none).answer =
      (r.addVariable name v range .global none).answer := hanswer
  simp only [Reader.declareGlobal, hsame]
  split
  · exact hfollow
  · exact hfollow.then (hfollow.abreast.complain _)

theorem Abreast.declareIn (h : Abreast N r r') (frame : Frame) {name : String} (hname : ¬N name)
    (v v' : Value) (range : Option Interval) :
    InStep N r r' (r.declareIn c frame name v range) (r'.declareIn c frame name v' range) := by
  simp only [Reader.declareIn, h.nameInfo?_eq name hname]
  split
  · exact h.follow (Store.addVariable_congr (h.nameInfo?_eq name hname) ..).2
  · split
    · exact h.complain _
    · split
      · exact h.complain _
      · have htold : InStep N r r' (if range.isSome then r.complain (.rangeIgnored name) else r)
            (if range.isSome then r'.complain (.rangeIgnored name) else r') := by
          split
          · exact h.complain _
          · exact h.inStep
        refine htold.then (htold.abreast.follow ?_)
        intro other hother
        rw [(Store.keeps_setOverride ..).nameInfo?_eq, (Store.keeps_setOverride ..).nameInfo?_eq]
        exact hother

theorem Abreast.declare (h : Abreast N r r') {content : List Char}
    (hname : ∀ name text, declaration? content = some (name, text) → ¬N name) :
    InStep N r r' (r.declare c content) (r'.declare c content) := by
  simp only [Reader.declare]
  split
  · exact h.complain _
  · next name text hdeclares =>
      have hname := hname name text hdeclares
      have hhere {told told' : Reader} (h : InStep N r r' told told') (v v' : Value) (range : Option Interval) :
          InStep N r r' (told.declareHere c name v range) (told'.declareHere c name v' range) := by
        refine h.then ?_
        rw [declareHere, declareHere, h.abreast.scope_eq]
        split
        · exact h.abreast.declareGlobal hname v v' range
        · exact h.abreast.declareIn _ hname v v' range
      refine hhere ?_ _ _ _
      split
      · exact h.complain _
      · exact h.inStep

theorem Abreast.enter (h : Abreast N r r') (kind : String) (name : Option String) (indent : Nat) :
    InStep N r r' (r.enter kind name indent) (r'.enter kind name indent) := by
  refine ⟨⟨?_, rfl, rfl, rfl, h.skip_eq, h.nameInfo?_eq⟩, ⟨rfl, rfl⟩, [], by simp [Reader.enter],
    by simp [Reader.enter]⟩
  simp only [Reader.enter, h.frames_eq]

theorem Abreast.openTrigger (h : Abreast N r r') (indent : Nat) (content : List Char) :
    InStep N r r' (r.openTrigger c indent content) (r'.openTrigger c indent content) := by
  simp only [Reader.openTrigger]
  split
  · exact h.refuse indent _
  · split
    · split
      · exact h.refuse indent _
      · split
        · exact h.refuse indent _
        · exact h.enter ..
    · split
      · exact h.enter ..
      · exact (h.complain _).then ((h.complain _).abreast.enter ..)

theorem Abreast.addComponent (h : Abreast N r r') {name : String} (hname : ¬N name) (kind : String)
    (indent : Nat) (scope : ScopeKind) (key : Option String) :
    InStep N r r' (r.addComponent kind name indent scope key) (r'.addComponent kind name indent scope key) := by
  obtain ⟨hanswer, hnames⟩ :=
    Store.addComponent_congr (h.nameInfo?_eq name hname) kind scope key
  have hfollow : InStep N r r' (r.follow (r.store.addComponent kind name scope key []))
      (r'.follow (r'.store.addComponent kind name scope key [])) := h.follow hnames
  simp only [Reader.addComponent, hanswer]
  split
  · refine ⟨⟨?_, rfl, ?_, rfl, ?_, hfollow.abreast.nameInfo?_eq⟩, hfollow.line_eq, hfollow.issues_eq⟩
    · exact hfollow.abreast.frames_eq
    · exact hfollow.abreast.trigger_eq
    · exact hfollow.abreast.skip_eq
  · exact hfollow.then (hfollow.abreast.refuse indent _)

theorem Abreast.openComponent (h : Abreast N r r') (indent : Nat) {content : List Char}
    (hname : ¬N (String.ofList (Header.ofContent content).rest)) :
    InStep N r r' (r.openComponent c indent content) (r'.openComponent c indent content) := by
  simp only [Reader.openComponent, h.scope_eq]
  split
  · exact h.refuse indent _
  · split
    · exact h.refuse indent _
    · split
      · exact h.addComponent hname ..
      · split
        · exact h.refuse indent _
        · exact h.addComponent hname ..

theorem Abreast.attach (h : Abreast N r r') (name : String) :
    InStep N r r' (r.attach name) (r'.attach name) := by
  rw [Reader.attach, Reader.attach, h.attr_eq]
  split
  · exact h.complain _
  · refine ⟨⟨h.frames_eq, h.component_eq, h.trigger_eq, rfl, h.skip_eq, ?_⟩, ⟨rfl, rfl⟩, [],
      by simp, by simp⟩
    intro other hother
    simp only [(Store.keeps_write ..).nameInfo?_eq]
    exact h.nameInfo?_eq other hother

theorem Abreast.modulate (h : Abreast N r r') (content : List Char) :
    InStep N r r' (r.modulate content) (r'.modulate content) := by
  simp only [Reader.modulate]
  split
  · exact h.complain _
  · exact h.complain _
  · exact h.attach _
  · exact h.complain _

theorem Abreast.writeLine (h : Abreast N r r') (indent : Nat) (owner : Owner) (attr : String)
    (text text' : List Char) :
    Abreast N (r.writeLine c strict indent owner attr text)
      (r'.writeLine c strict indent owner attr text') := by
  have hwritten (now : Reader) (text : List Char) : now.writeLine c strict indent owner attr text =
      { now with
        store := (now.writeLine c strict indent owner attr text).store
        issues := (now.writeLine c strict indent owner attr text).issues
        attributeLines := ((owner, attr), now.line) :: now.attributeLines
        attr := some ⟨attr, indent, owner⟩ } := by
    simp only [Reader.writeLine, complainAll_eq]
    split <;> rfl
  have hnames (now : Reader) (text : List Char) (other : String) :
      (now.writeLine c strict indent owner attr text).store.nameInfo? other = now.store.nameInfo? other :=
    (Store.keeps_write ..).nameInfo?_eq other
  rw [hwritten r, hwritten r']
  refine ⟨h.frames_eq, h.component_eq, h.trigger_eq, rfl, h.skip_eq, ?_⟩
  intro other hother
  exact ((hnames r' text' other).trans (h.nameInfo?_eq other hother)).trans (hnames r text other).symm

theorem Abreast.settle (h : Abreast N r r') (indent : Nat) :
    Abreast N (r.settle indent) (r'.settle indent) := by
  have hcloses : r'.closes indent = r.closes indent := by rw [closes, closes, h.frames_eq]
  rw [settle_eq, settle_eq]
  refine ⟨?_, ?_, ?_, ?_, rfl, h.nameInfo?_eq⟩
  · simp only [h.frames_eq]
  · simp only [hcloses, h.component_eq]
  · simp only [hcloses, h.frames_eq, h.trigger_eq]
  · simp only [hcloses, h.attr_eq]

theorem Abreast.next (h : Abreast N r r') :
    Abreast N { r with line := r.line + 1 } { r' with line := r'.line + 1 } :=
  ⟨h.frames_eq, h.component_eq, h.trigger_eq, h.attr_eq, h.skip_eq, h.nameInfo?_eq⟩

theorem Abreast.ready (h : Abreast N r r') (line : List Char) : Abreast N (r.ready line) (r'.ready line) :=
  h.next.settle _

theorem Abreast.passes_eq (h : Abreast N r r') (line : List Char) : r'.passes line = r.passes line := by
  rw [passes, passes, skips, skips, h.skip_eq]

theorem Abreast.classify_eq (h : Abreast N r r') (c : Catalog) (indent : Nat) (word : String) :
    r'.classify c indent word = r.classify c indent word := by
  rw [classify, classify, continuesBody, continuesBody, h.component_eq, h.trigger_eq]

theorem Abreast.kindOf_eq (h : Abreast N r r') (c : Catalog) (line : List Char) :
    r'.kindOf c line = r.kindOf c line :=
  (h.ready line).classify_eq ..

theorem Abreast.assignment?_eq (h : Abreast N r r') (c : Catalog) (line : List Char) :
    r'.assignment? c line = r.assignment? c line := by
  simp only [assignment?, h.passes_eq, (h.ready line).classify_eq, (h.ready line).owner_eq]

theorem Abreast.attachment?_eq (h : Abreast N r r') (c : Catalog) (line : List Char) :
    r'.attachment? c line = r.attachment? c line := by
  simp only [attachment?, h.passes_eq, h.kindOf_eq, (h.ready line).attr_eq]

def named? (c : Catalog) (line : List Char) (r : Reader) : Option String :=
  if r.passes line then none
  else match r.kindOf c line with
    | .declaration => (declaration? (strip line)).map Prod.fst
    | .component => some (String.ofList (Header.ofContent (strip line)).rest)
    | _ => none

theorem Abreast.named?_eq (h : Abreast N r r') (c : Catalog) (line : List Char) :
    r'.named? c line = r.named? c line := by
  simp only [named?, h.passes_eq, h.kindOf_eq]

theorem named?_of_not_passes (hpasses : r.passes line = false) :
    r.named? c line = match r.kindOf c line with
      | .declaration => (declaration? (strip line)).map Prod.fst
      | .component => some (String.ofList (Header.ofContent (strip line)).rest)
      | _ => none :=
  if_neg (ne_true_of_eq_false hpasses)

theorem Abreast.inStep_ready (h : Abreast N r r') (line : List Char) :
    InStep N { r with line := r.line + 1 } { r' with line := r'.line + 1 } (r.ready line)
      (r'.ready line) := by
  refine ⟨h.ready line, ?_, [], ?_, ?_⟩
  · rw [Reader.ready, Reader.ready, settle_eq, settle_eq]
    exact ⟨rfl, rfl⟩
  · rw [Reader.ready, settle_eq]
    simp
  · rw [Reader.ready, settle_eq]
    simp

theorem Abreast.step_of_no_assignment (h : Abreast N r r') (strict : Bool)
    (hname : ∀ name, r.named? c line = some name → ¬N name) (hgives : r.assignment? c line = none) :
    InStep N { r with line := r.line + 1 } { r' with line := r'.line + 1 } (r.step c strict line)
      (r'.step c strict line) := by
  cases hpasses : r.passes line with
  | true =>
      rw [step_of_passes hpasses, step_of_passes ((h.passes_eq line).trans hpasses)]
      exact h.next.inStep
  | false =>
      refine (h.inStep_ready line).then ?_
      have hnow := h.ready line
      rw [step_of_kindOf hpasses rfl,
        step_of_kindOf ((h.passes_eq line).trans hpasses) (h.kindOf_eq c line)]
      cases hkind : r.kindOf c line with
      | assignment =>
          simp only [act, Reader.assignLine, hnow.owner_eq]
          cases howner : (r.ready line).owner with
          | none => exact hnow.complain _
          | some owner =>
              simp only
              split
              · exact hnow.complain _
              · split
                · exact hnow.complain _
                · simp_all [assignment?, kindOf]
      | declaration =>
          refine hnow.declare ?_
          intro name text hdeclares
          refine hname name ?_
          rw [named?_of_not_passes hpasses, hkind, hdeclares]
          rfl
      | trigger => exact hnow.openTrigger ..
      | modulation => exact hnow.modulate _
      | component =>
          refine hnow.openComponent _ (hname _ ?_)
          rw [named?_of_not_passes hpasses, hkind]

/-- All lines are taken alike but for what is written to the attributes. -/
theorem Abreast.step (h : Abreast N r r') (strict : Bool)
    (hname : ∀ name, r.named? c line = some name → ¬N name) :
    Abreast N (r.step c strict line) (r'.step c strict line) := by
  cases hgives : r.assignment? c line with
  | none => exact (h.step_of_no_assignment strict hname hgives).abreast
  | some given =>
      obtain ⟨⟨owner, attr⟩, text⟩ := given
      obtain ⟨-, hstep⟩ := step_of_assignment? strict hgives
      obtain ⟨-, hstep'⟩ := step_of_assignment? strict ((h.assignment?_eq c line).trans hgives)
      rw [hstep, hstep']
      exact (h.ready line).writeLine ..

end Document.Reader

end Instrument
