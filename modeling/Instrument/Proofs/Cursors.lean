import Instrument.Document.Reading
import Instrument.Proofs.LineEffect

namespace Instrument.Document

open Text

/-- What a line is for the lines after it. -/
inductive Event
  | trigger (frame : Frame)
  | component (cursor : ComponentCursor)
  | plain (indent : Nat)

namespace Event

def indent : Event → Nat
  | trigger frame => frame.indent
  | component cursor => cursor.indent
  | plain indent => indent

def frame? : Event → Option Frame
  | trigger frame => some frame
  | _ => none

def cursor? : Event → Option ComponentCursor
  | component cursor => some cursor
  | _ => none

def isTrigger (e : Event) : Prop := ∃ frame, e = trigger frame

end Event

namespace Reader

variable {c : Catalog} {strict : Bool} {r r' : Reader}

structure SameOpen (r r' : Reader) : Prop where
  frames_eq : r'.frames = r.frames
  trigger_eq : r'.trigger = r.trigger
  component_eq : r'.component = r.component
  attr_eq : r'.attr = r.attr

theorem SameOpen.trans {r r' r'' : Reader} (h : SameOpen r r') (h' : SameOpen r' r'') :
    SameOpen r r'' :=
  ⟨h'.frames_eq.trans h.frames_eq, h'.trigger_eq.trans h.trigger_eq,
    h'.component_eq.trans h.component_eq, h'.attr_eq.trans h.attr_eq⟩

theorem sameOpen_complain (complaint : Complaint) : SameOpen r (r.complain complaint) :=
  ⟨rfl, rfl, rfl, rfl⟩

theorem sameOpen_follow {α : Type} (outcome : Outcome α) : SameOpen r (r.follow outcome) :=
  ⟨rfl, rfl, rfl, rfl⟩

theorem sameOpen_refuse (indent : Nat) (complaint : Complaint) :
    SameOpen r (r.refuse indent complaint) :=
  ⟨rfl, rfl, rfl, rfl⟩

theorem sameOpen_declareHere (name : String) (value : Value) (range : Option Interval) :
    SameOpen r (r.declareHere c name value range) := by
  simp only [declareHere, declareGlobal, declareIn]
  split
  · split
    · exact sameOpen_follow _
    · exact (sameOpen_follow _).trans (sameOpen_complain _)
  · split
    · exact sameOpen_follow _
    · split
      · exact sameOpen_complain _
      · split
        · exact sameOpen_complain _
        · split
          · exact (sameOpen_complain _).trans (sameOpen_follow _)
          · exact sameOpen_follow _

theorem sameOpen_declare (content : List Char) : SameOpen r (r.declare c content) := by
  obtain h | ⟨name, value, range, told, htold, h⟩ := declare_cases c content r
  · rw [h]
    exact sameOpen_complain _
  · rw [h]
    rcases htold with rfl | ⟨complaint, rfl⟩
    · exact sameOpen_declareHere name value range
    · exact (sameOpen_complain _).trans (sameOpen_declareHere name value range)

theorem sameOpen_modulate (content : List Char) : SameOpen r (r.modulate content) := by
  simp only [modulate, attach]
  split
  · exact sameOpen_complain _
  · exact sameOpen_complain _
  · split
    · exact sameOpen_complain _
    · exact ⟨rfl, rfl, rfl, rfl⟩
  · exact sameOpen_complain _

theorem sameOpen_writeLine (indent : Nat) (owner : Owner) (attr : String) (text : List Char) :
    SameOpen { r with attr := some ⟨attr, indent, owner⟩ }
      (r.writeLine c strict indent owner attr text) := by
  simp only [writeLine, complainAll_eq]
  split <;> exact ⟨rfl, rfl, rfl, rfl⟩

theorem skip_writeLine (indent : Nat) (owner : Owner) (attr : String) (text : List Char) :
    (r.writeLine c strict indent owner attr text).skip = r.skip := by
  simp only [writeLine, complainAll_eq]
  split <;> rfl

def closes (indent : Nat) (r : Reader) : Bool := r.frames.head?.any (indent ≤ ·.indent)

theorem length_dropWhile_lt {α : Type} {p : α → Bool} {l : List α} :
    (l.dropWhile p).length < l.length ↔ l.head?.any p = true := by
  cases l with
  | nil => simp
  | cons a rest =>
      rw [List.dropWhile_cons]
      cases h : p a with
      | false => simp [h]
      | true =>
          have hle := (List.dropWhile_suffix (l := rest) p).length_le
          simp only [List.head?_cons, Option.any_some, h, iff_true, if_true, List.length_cons]
          omega

theorem frames_settle (indent : Nat) (r : Reader) :
    (r.settle indent).frames = r.frames.dropWhile (indent ≤ ·.indent) := by
  simp only [settle, closeFrames]
  split <;> rfl

theorem settle_of_closes {indent : Nat} (h : r.closes indent = true) :
    (r.settle indent).component = none ∧ (r.settle indent).attr = none ∧
      (r.settle indent).trigger = (r.settle indent).scope := by
  have hlt := length_dropWhile_lt.2 h
  have hclosed : r.closeFrames indent =
      { r with
        frames := r.frames.dropWhile (indent ≤ ·.indent)
        component := none
        trigger := ({ r with frames := r.frames.dropWhile (indent ≤ ·.indent) } : Reader).scope
        attr := none } := if_pos hlt
  rw [settle, hclosed]
  exact ⟨rfl, rfl, rfl⟩

theorem settle_of_not_closes {indent : Nat} (h : r.closes indent = false) :
    (r.settle indent).component = r.component.filter (·.indent < indent) ∧
      (r.settle indent).attr = r.attr.filter (·.indent < indent) ∧
      (r.settle indent).trigger = r.trigger := by
  have hlt : ¬(r.frames.dropWhile (indent ≤ ·.indent)).length < r.frames.length := by
    intro hlt
    have hcloses : r.closes indent = true := length_dropWhile_lt.1 hlt
    simp [h] at hcloses
  have hkept : r.closeFrames indent =
      { r with frames := r.frames.dropWhile (indent ≤ ·.indent) } := if_neg hlt
  rw [settle, hkept]
  exact ⟨rfl, rfl, rfl⟩

theorem frames_of_not_closes {indent : Nat} (h : r.closes indent = false) :
    (r.settle indent).frames = r.frames := by
  rw [frames_settle]
  rw [closes] at h
  cases hframes : r.frames with
  | nil => rfl
  | cons frame rest =>
      rw [hframes] at h
      rw [List.dropWhile_cons, if_neg]
      simpa using h

theorem component_settle (indent : Nat) (r : Reader) :
    (r.settle indent).component =
      if r.closes indent then none else r.component.filter (·.indent < indent) := by
  cases h : r.closes indent with
  | false => simpa using (settle_of_not_closes h).1
  | true => simpa using (settle_of_closes h).1

theorem frames_settle_congr (hframes : r'.frames = r.frames) (indent : Nat) :
    (r'.settle indent).frames = (r.settle indent).frames := by
  rw [frames_settle, frames_settle, hframes]

theorem component_settle_congr (hframes : r'.frames = r.frames)
    (hcomponent : r'.component = r.component) (indent : Nat) :
    (r'.settle indent).component = (r.settle indent).component := by
  rw [component_settle, component_settle, closes, closes, hframes, hcomponent]

theorem frames_settle_settle (first second : Nat) (r : Reader) :
    ((r.settle first).settle second).frames = (r.settle (min first second)).frames := by
  rw [frames_settle, frames_settle, frames_settle]
  induction r.frames with
  | nil => rfl
  | cons frame rest ih =>
      by_cases hfirst : first ≤ frame.indent
      · rw [List.dropWhile_cons_of_pos (by simpa using hfirst), ih,
          List.dropWhile_cons_of_pos (by simp; omega)]
      · rw [List.dropWhile_cons_of_neg (by simpa using hfirst)]
        by_cases hsecond : second ≤ frame.indent
        · rw [List.dropWhile_cons_of_pos (by simpa using hsecond),
            List.dropWhile_cons_of_pos (by simp; omega)]
          have hmin : min first second = second := by omega
          rw [hmin]
        · rw [List.dropWhile_cons_of_neg (by simpa using hsecond),
            List.dropWhile_cons_of_neg (by simp; omega)]

theorem closes_min (first second : Nat) (r : Reader) :
    r.closes (min first second) = (r.closes first || r.closes second) := by
  rw [closes, closes, closes]
  cases r.frames.head? with
  | none => rfl
  | some frame =>
      simp only [Option.any_some, ← Bool.decide_or, decide_eq_decide]
      omega

theorem component_settle_settle (first second : Nat) (r : Reader) :
    ((r.settle first).settle second).component = (r.settle (min first second)).component := by
  rw [component_settle second, component_settle (min first second), closes_min]
  cases hfirst : r.closes first with
  | true => simp [(settle_of_closes hfirst).1]
  | false =>
      have hsecond : (r.settle first).closes second = r.closes second := by
        rw [closes, closes, frames_of_not_closes hfirst]
      rw [hsecond, (settle_of_not_closes hfirst).1, Bool.false_or]
      congr 1
      cases r.component with
      | none => rfl
      | some cursor =>
          by_cases h : cursor.indent < first
          · have hmin : cursor.indent < min first second ↔ cursor.indent < second := by omega
            simp only [Option.filter_some, h, hmin, decide_true, if_true]
          · have hmin : ¬ cursor.indent < min first second := by omega
            simp only [Option.filter_some, h, hmin, decide_false, Bool.false_eq_true, if_false,
              Option.filter_none]

def eventOf (c : Catalog) (indent : Nat) (content : List Char) (r : Reader) : Event :=
  match r.classify c indent (String.ofList (firstWord content)) with
  | .trigger =>
    match headerFrame? c indent content with
    | some frame => .trigger frame
    | none => .plain indent
  | .component =>
    if (r.openComponent c indent content).skip.isNone then
      .component (headerComponent indent content)
    else .plain indent
  | _ => .plain indent

theorem eventOf_eq_trigger_iff {indent : Nat} {content : List Char} {frame : Frame} :
    r.eventOf c indent content = .trigger frame ↔
      r.classify c indent (String.ofList (firstWord content)) = .trigger ∧
        headerFrame? c indent content = some frame := by
  rw [eventOf]
  cases r.classify c indent (String.ofList (firstWord content)) with
  | trigger =>
      cases headerFrame? c indent content <;> simp
  | component =>
      simp only
      split <;> simp
  | declaration | modulation | assignment => simp

theorem eventOf_eq_component_iff {indent : Nat} {content : List Char} {cursor : ComponentCursor} :
    r.eventOf c indent content = .component cursor ↔
      r.classify c indent (String.ofList (firstWord content)) = .component ∧
        (r.openComponent c indent content).skip.isNone ∧ headerComponent indent content = cursor := by
  rw [eventOf]
  cases r.classify c indent (String.ofList (firstWord content)) with
  | trigger =>
      cases headerFrame? c indent content <;> simp
  | component =>
      simp only
      split <;> simp_all
  | declaration | modulation | assignment => simp

theorem indent_eventOf (c : Catalog) (indent : Nat) (content : List Char) (r : Reader) :
    (r.eventOf c indent content).indent = indent := by
  rw [eventOf]
  split
  · split
    · next h => exact (indent_and_kind_headerFrame? h).1
    · rfl
  · split <;> rfl
  · rfl

/-- What is open after a line that opens something, or nothing. -/
inductive Opens (r r' : Reader) : Event → Prop
  | trigger (frame : Frame) (hframes : r'.frames = frame :: r.frames)
      (htrigger : r'.trigger = some frame) (hcomponent : r'.component = none)
      (hattr : r'.attr = none) (hstore : r'.store = r.store.declareTrigger frame.key frame.kind) :
      Opens r r' (.trigger frame)
  | component (cursor : ComponentCursor) (hfree : r.component = none)
      (hframes : r'.frames = r.frames) (htrigger : r'.trigger = r.trigger)
      (hcomponent : r'.component = some cursor) (hattr : r'.attr = none)
      (hstored : ∃ x, r'.store.componentAt? r.home cursor.kind cursor.name = some x) :
      Opens r r' (.component cursor)
  | plain (indent : Nat) (hopen : SameOpen r r') : Opens r r' (.plain indent)
  | assigned (indent : Nat) (attr : String) (owner : Owner) (howner : r.owner = some owner)
      (hopen : SameOpen { r with attr := some ⟨attr, indent, owner⟩ } r') :
      Opens r r' (.plain indent)

theorem component_of_classify {indent : Nat} {word : String} (r : Reader)
    (h : (r.settle indent).classify c indent word = .component) :
    (r.settle indent).component = none := by
  have hbody : (r.settle indent).continuesBody c indent word = false := by
    rw [classify] at h
    repeat' split at h
    all_goals first | contradiction | simp_all
  rw [continuesBody] at hbody
  split at hbody
  · next hzero =>
      rw [component_settle, hzero]
      split
      · rfl
      · simp
  · split at hbody
    · contradiction
    · next hnone => simpa using hnone

theorem opens_dispatch (indent : Nat) (content : List Char) (r : Reader) :
    Opens (r.settle indent) ((r.settle indent).dispatch c strict indent content)
      ((r.settle indent).eventOf c indent content) := by
  rw [dispatch, eventOf]
  cases hkind : (r.settle indent).classify c indent (String.ofList (firstWord content)) with
  | declaration => exact .plain indent (sameOpen_declare content)
  | modulation => exact .plain indent (sameOpen_modulate content)
  | assignment =>
      simp only [act]
      obtain ⟨complaint, h⟩ | ⟨owner, attr, text, howner, h⟩ :=
        assignLine_cases c strict indent content (r.settle indent)
      · rw [h]
        exact .plain indent (sameOpen_complain complaint)
      · rw [h]
        exact .assigned indent attr owner howner (sameOpen_writeLine indent owner attr text)
  | trigger =>
      simp only [act]
      obtain ⟨hrefused, complaint, h⟩ | ⟨frame, told, hframe, htold, h⟩ :=
        openTrigger_cases c indent content (r.settle indent)
      · rw [h, hrefused]
        exact .plain indent (sameOpen_refuse indent complaint)
      · rw [h, hframe]
        rcases htold with rfl | ⟨complaint, rfl⟩
        · exact .trigger frame rfl rfl rfl rfl rfl
        · exact .trigger frame rfl rfl rfl rfl rfl
  | component =>
      simp only [act]
      obtain ⟨hok, h⟩ | ⟨told, complaint, htold, h⟩ :=
        openComponent_cases c indent content (r.settle indent)
      · rw [h]
        exact .component _ (component_of_classify r hkind) rfl rfl rfl rfl (addHere_stored hok)
      · rw [h]
        rcases htold with rfl | ⟨outcome, -, rfl⟩
        · exact .plain indent (sameOpen_refuse indent complaint)
        · exact .plain indent ((sameOpen_follow outcome).trans (sameOpen_refuse indent complaint))

theorem takesHeader_eventOf {indent : Nat} {content : List Char} {frame : Frame}
    (h : r.eventOf c indent content = .trigger frame) :
    ∃ name, TakesHeader c frame.kind name ∧ frame.key = makeScopeKey frame.kind name :=
  takesHeader_headerFrame? (eventOf_eq_trigger_iff.1 h).2

theorem isTriggerKind_of_takesHeader {kind : String} {name : Option String}
    (h : TakesHeader c kind name) : c.isTriggerKind kind = true := by
  obtain ⟨schema, hschema, -⟩ := h
  exact Option.isSome_iff_exists.2 ⟨schema, hschema⟩

structure AllOpen (p : Owner → Prop) (r : Reader) : Prop where
  frame : ∀ frame ∈ r.frames, p (.trigger frame.key frame.kind)
  trigger : ∀ frame, r.trigger = some frame → p (.trigger frame.key frame.kind)
  component : ∀ cursor, r.component = some cursor → p (.component cursor.name cursor.kind)
  attr : ∀ cursor, r.attr = some cursor → p cursor.owner

variable {p q : Owner → Prop}

theorem allOpen_start : AllOpen p start where
  frame := by simp [start]
  trigger := by simp [start]
  component := by simp [start]
  attr := by simp [start]

theorem AllOpen.mono (h : AllOpen p r) (hpq : ∀ {who}, p who → q who) : AllOpen q r where
  frame frame hframe := hpq (h.frame frame hframe)
  trigger frame hframe := hpq (h.trigger frame hframe)
  component cursor hcursor := hpq (h.component cursor hcursor)
  attr cursor hcursor := hpq (h.attr cursor hcursor)

theorem AllOpen.owner (h : AllOpen p r) {who : Owner} (hwho : r.owner = some who) : p who := by
  rw [Reader.owner] at hwho
  cases hcomponent : r.component with
  | some cursor =>
      rw [hcomponent] at hwho
      rw [← Option.some.inj hwho]
      exact h.component cursor hcomponent
  | none =>
      rw [hcomponent] at hwho
      obtain ⟨frame, hframe, rfl⟩ := Option.map_eq_some_iff.1 hwho
      exact h.trigger frame hframe

theorem AllOpen.scope (h : AllOpen p r) {frame : Frame} (hscope : r.scope = some frame) :
    p (.trigger frame.key frame.kind) := by
  rw [Reader.scope, Option.filter_eq_some_iff] at hscope
  exact h.frame frame (List.mem_of_mem_head? hscope.1)

theorem AllOpen.settle (h : AllOpen p r) (indent : Nat) : AllOpen p (r.settle indent) := by
  have hframes : ∀ frame ∈ (r.settle indent).frames, p (.trigger frame.key frame.kind) := by
    rw [frames_settle]
    intro frame hframe
    exact h.frame frame ((List.dropWhile_suffix _).subset hframe)
  cases hcloses : r.closes indent with
  | true =>
      obtain ⟨hcomponent, hattr, htrigger⟩ := settle_of_closes hcloses
      refine ⟨hframes, ?_, by simp [hcomponent], by simp [hattr]⟩
      intro frame hframe
      rw [htrigger, Reader.scope, Option.filter_eq_some_iff] at hframe
      exact hframes frame (List.mem_of_mem_head? hframe.1)
  | false =>
      obtain ⟨hcomponent, hattr, htrigger⟩ := settle_of_not_closes hcloses
      refine ⟨hframes, ?_, ?_, ?_⟩
      · rw [htrigger]
        exact h.trigger
      · intro cursor hcursor
        rw [hcomponent, Option.filter_eq_some_iff] at hcursor
        exact h.component cursor hcursor.1
      · intro cursor hcursor
        rw [hattr, Option.filter_eq_some_iff] at hcursor
        exact h.attr cursor hcursor.1

theorem AllOpen.of_sameOpen (h : AllOpen p r) (hopen : SameOpen r r') : AllOpen p r' where
  frame := by
    rw [hopen.frames_eq]
    exact h.frame
  trigger := by
    rw [hopen.trigger_eq]
    exact h.trigger
  component := by
    rw [hopen.component_eq]
    exact h.component
  attr := by
    rw [hopen.attr_eq]
    exact h.attr

theorem AllOpen.of_opens {e : Event} (h : AllOpen p r) (hopens : Opens r r' e)
    (hframe : ∀ frame, e = .trigger frame → p (.trigger frame.key frame.kind))
    (hcursor : ∀ cursor, e = .component cursor → p (.component cursor.name cursor.kind)) :
    AllOpen p r' := by
  cases hopens with
  | trigger frame hframes htrigger hcomponent hattr =>
      refine ⟨?_, ?_, by simp [hcomponent], by simp [hattr]⟩
      · rw [hframes]
        exact List.forall_mem_cons.2 ⟨hframe frame rfl, h.frame⟩
      · intro other hother
        rw [htrigger] at hother
        rw [← Option.some.inj hother]
        exact hframe frame rfl
  | component cursor hfree hframes htrigger hcomponent hattr =>
      refine ⟨?_, ?_, ?_, by simp [hattr]⟩
      · rw [hframes]
        exact h.frame
      · rw [htrigger]
        exact h.trigger
      · intro other hother
        rw [hcomponent] at hother
        rw [← Option.some.inj hother]
        exact hcursor cursor rfl
  | plain indent hopen => exact h.of_sameOpen hopen
  | assigned indent attr who howner hopen =>
      have hwritten : AllOpen p { r with attr := some ⟨attr, indent, who⟩ } := by
        refine ⟨h.frame, h.trigger, h.component, ?_⟩
        intro cursor hcursor
        rw [← Option.some.inj hcursor]
        exact h.owner howner
      exact hwritten.of_sameOpen hopen

structure Orderly (r : Reader) : Prop where
  named : ∀ frame ∈ r.frames, frame.isGlobal = false
  trigger_eq : r.trigger = r.frames.head?
  owner_attr : ∀ cursor, r.attr = some cursor → r.owner = some cursor.owner
  deeper : ∀ cursor inner, r.component = some cursor → r.attr = some inner →
    cursor.indent < inner.indent

theorem orderly_start : Orderly start where
  named := by simp [start]
  trigger_eq := rfl
  owner_attr := by simp [start]
  deeper := by simp [start]

theorem scope_of_named (h : ∀ frame ∈ r.frames, frame.isGlobal = false) :
    r.scope = r.frames.head? := by
  rw [scope]
  cases hframes : r.frames with
  | nil => rfl
  | cons frame rest =>
      have hframe := h frame (by simp [hframes])
      simp [Option.filter_some, hframe]

theorem owner_congr (hcomponent : r'.component = r.component) (htrigger : r'.trigger = r.trigger) :
    r'.owner = r.owner := by
  rw [owner, owner, hcomponent, htrigger]

theorem Orderly.of_sameOpen (h : Orderly r) (hopen : SameOpen r r') : Orderly r' where
  named := by
    rw [hopen.frames_eq]
    exact h.named
  trigger_eq := by
    rw [hopen.trigger_eq, hopen.frames_eq]
    exact h.trigger_eq
  owner_attr := by
    rw [hopen.attr_eq, owner_congr hopen.component_eq hopen.trigger_eq]
    exact h.owner_attr
  deeper := by
    rw [hopen.attr_eq, hopen.component_eq]
    exact h.deeper

theorem Orderly.settle (h : Orderly r) (indent : Nat) : Orderly (r.settle indent) := by
  have hnamed : ∀ frame ∈ (r.settle indent).frames, frame.isGlobal = false := by
    rw [frames_settle]
    intro frame hframe
    exact h.named frame ((List.dropWhile_suffix _).subset hframe)
  cases hcloses : r.closes indent with
  | true =>
      obtain ⟨hcomponent, hattr, htrigger⟩ := settle_of_closes hcloses
      exact ⟨hnamed, htrigger.trans (scope_of_named hnamed), by simp [hattr], by simp [hattr]⟩
  | false =>
      obtain ⟨hcomponent, hattr, htrigger⟩ := settle_of_not_closes hcloses
      refine ⟨hnamed, ?_, ?_, ?_⟩
      · rw [htrigger, frames_of_not_closes hcloses]
        exact h.trigger_eq
      · intro inner hinner
        rw [hattr, Option.filter_eq_some_iff, decide_eq_true_eq] at hinner
        rw [← h.owner_attr inner hinner.1]
        refine owner_congr ?_ htrigger
        rw [hcomponent]
        cases hopen : r.component with
        | none => rfl
        | some cursor =>
            have hdeeper := h.deeper cursor inner hopen hinner.1
            exact Option.filter_eq_some_iff.2 ⟨rfl, by simp; omega⟩
      · intro cursor inner hcursor hinner
        rw [hcomponent, Option.filter_eq_some_iff] at hcursor
        rw [hattr, Option.filter_eq_some_iff] at hinner
        exact h.deeper cursor inner hcursor.1 hinner.1

theorem Orderly.of_opens {e : Event} (h : Orderly r) (hopens : Opens r r' e)
    (hnamed : ∀ frame, e = .trigger frame → frame.isGlobal = false)
    (hdeeper : ∀ cursor, r.component = some cursor → cursor.indent < e.indent) : Orderly r' := by
  cases hopens with
  | trigger frame hframes htrigger hcomponent hattr =>
      refine ⟨?_, ?_, by simp [hattr], by simp [hattr]⟩
      · rw [hframes]
        exact List.forall_mem_cons.2 ⟨hnamed frame rfl, h.named⟩
      · rw [htrigger, hframes, List.head?_cons]
  | component cursor hfree hframes htrigger hcomponent hattr =>
      refine ⟨?_, ?_, by simp [hattr], by simp [hattr]⟩
      · rw [hframes]
        exact h.named
      · rw [htrigger, hframes]
        exact h.trigger_eq
  | plain indent hopen => exact h.of_sameOpen hopen
  | assigned indent attr owner howner hopen =>
      have hwritten : Orderly { r with attr := some ⟨attr, indent, owner⟩ } := by
        refine ⟨h.named, h.trigger_eq, ?_, ?_⟩
        · intro inner hinner
          rw [← Option.some.inj hinner]
          exact howner
        · intro cursor inner hcursor hinner
          rw [← Option.some.inj hinner]
          exact hdeeper cursor hcursor
      exact hwritten.of_sameOpen hopen

/-- The component that is open lies in the scope that is open. -/
structure Housed (r : Reader) : Prop where
  coherent : r.store.Coherent
  component_home : ∀ cursor, r.component = some cursor →
    ∃ x, r.store.componentAt? r.home cursor.kind cursor.name = some x

theorem housed_start : Housed start where
  coherent := Store.coherent_empty
  component_home := by simp [start]

theorem store_settle (indent : Nat) (r : Reader) : (r.settle indent).store = r.store := by
  simp only [settle, closeFrames]
  split <;> rfl

theorem home_congr (h : r'.frames = r.frames) : r'.home = r.home := by
  rw [home, home, scope, scope, h]

theorem Housed.settle (h : Housed r) (indent : Nat) : Housed (r.settle indent) where
  coherent := by
    rw [store_settle]
    exact h.coherent
  component_home := by
    intro cursor hcursor
    rw [component_settle] at hcursor
    split at hcursor
    · cases hcursor
    · next hcloses =>
        have hframes := frames_of_not_closes (eq_false_of_ne_true hcloses)
        rw [store_settle, home_congr hframes]
        exact h.component_home cursor (Option.filter_eq_some_iff.1 hcursor).1

theorem Housed.of_opens {e : Event} {kind : LineKind} (h : Housed r)
    (heffect : Effect c strict r kind r'.store) (hopens : Opens r r' e) : Housed r' where
  coherent := heffect.coherent h.coherent
  component_home := by
    intro cursor hcursor
    cases hopens with
    | trigger frame hframes htrigger hcomponent hattr =>
        rw [hcomponent] at hcursor
        cases hcursor
    | component opened hfree hframes htrigger hcomponent hattr hstored =>
        rw [hcomponent] at hcursor
        obtain rfl := Option.some.inj hcursor
        rw [home_congr hframes]
        exact hstored
    | plain indent hopen =>
        rw [home_congr hopen.frames_eq]
        rw [hopen.component_eq] at hcursor
        obtain ⟨x, hx⟩ := h.component_home cursor hcursor
        exact heffect.componentAt?_some hx
    | assigned indent attr owner howner hopen =>
        have hframes : r'.frames = r.frames := hopen.frames_eq
        have hcomponent : r'.component = r.component := hopen.component_eq
        rw [home_congr hframes]
        rw [hcomponent] at hcursor
        obtain ⟨x, hx⟩ := h.component_home cursor hcursor
        exact heffect.componentAt?_some hx

def passes (line : List Char) (r : Reader) : Bool :=
  saysNothing (strip line) || r.skips (indentOf line)

/-- The reader at which a line that is not looked past is read. -/
def ready (line : List Char) (r : Reader) : Reader :=
  ({ r with line := r.line + 1 } : Reader).settle (indentOf line)

theorem step_of_passes {line : List Char} (h : r.passes line = true) :
    r.step c strict line = { r with line := r.line + 1 } :=
  if_pos h

theorem step_of_not_passes {line : List Char} (h : r.passes line = false) :
    r.step c strict line = (r.ready line).dispatch c strict (indentOf line) (strip line) :=
  if_neg (ne_true_of_eq_false h)

theorem Housed.step (h : Housed r) (line : List Char) : Housed (r.step c strict line) := by
  have hnext : Housed { r with line := r.line + 1 } := ⟨h.coherent, h.component_home⟩
  cases hpasses : r.passes line with
  | true =>
      rw [step_of_passes hpasses]
      exact hnext
  | false =>
      rw [step_of_not_passes hpasses]
      exact (hnext.settle (indentOf line)).of_opens (effect_dispatch _ _) (opens_dispatch _ _ _)

/-- What every line keeps, any lines keep. -/
theorem readLines_keeps {p : Reader → Prop}
    (hstep : ∀ {r : Reader} (line : List Char), p r → p (r.step c strict line)) (lines : List (List Char)) :
    ∀ {r}, p r → p (readLines c strict r lines) := by
  induction lines with
  | nil =>
      intro r h
      exact h
  | cons line rest ih =>
      intro r h
      exact ih (hstep line h)

theorem housed_readLines (c : Catalog) (strict : Bool) (lines : List (List Char)) :
    Housed (readLines c strict start lines) :=
  readLines_keeps (fun line h => h.step line) lines housed_start

end Reader

end Instrument.Document
