import Instrument.Proofs.Legible
import Instrument.Proofs.Scoping

namespace Instrument

namespace Store

/-- The attribute of an owner. A component is looked for in a scope, a trigger by its key alone. -/
def attributeAt? (s : Store) (home : Option String) (owner : Owner) (attr : String) : Option Cell :=
  match owner with
  | .component name kind => (s.componentAt? home kind name).bind (·.cell? attr)
  | .trigger key _ => s.triggerCell? key attr

theorem attributeAt?_write {s : Store} {home : Option String} {who : Owner} (hread : s.Readable)
    (hs : s.Coherent) (hreaches : s.Reaches who)
    (hhome : ∀ name kind, who = .component name kind → ∃ x, s.componentAt? home kind name = some x)
    (attr : String) (a : Attribute) : (s.write who attr a).attributeAt? home who attr = some (.ok a) := by
  cases who with
  | component name kind =>
      obtain ⟨x, hx⟩ := hhome name kind rfl
      have hknown : s.Knows (.component name kind) := ⟨home, x, hx⟩
      rw [hread.write_eq hs hknown, attributeAt?, setCell, hs.componentAt?_changeComponent hx,
        if_pos ⟨rfl, rfl, rfl⟩]
      exact Table.get?_insert_self ..
  | trigger key kind =>
      obtain ⟨who', hknown, hbare⟩ := hreaches.knows
      rw [← s.write_of_bare hbare, hread.write_eq hs hknown]
      have hcell : (s.setCell who' attr (.ok a)).cell? who' attr = some (.ok a) :=
        cell?_setCell (hknown.component?_eq hs) _
      rwa [cell?_of_bare hbare] at hcell

end Store

namespace Document

open Text

/-- A line and all that lie between it and an opening line are indented deeper than that. -/
def Within (opening : Nat) (between : List Event) (indent : Nat) : Prop :=
  opening < indent ∧ ∀ e ∈ between, opening < e.indent

/-- The latest line before a line with an indent that opens something and has this line within it,
with no line between them that bars it. -/
def Innermost {α : Type} (opens : Event → Option α) (bars : Event → Prop) (history : List Event)
    (indent : Nat) (x : α) : Prop :=
  ∃ earlier e later, history = earlier ++ e :: later ∧ opens e = some x ∧
    Within e.indent later indent ∧ (∀ l ∈ later, ¬bars l) ∧
    ∀ before other after, later = before ++ other :: after → (opens other).isSome →
      ¬Within other.indent after indent

def EnclosingTrigger (history : List Event) (indent : Nat) (frame : Frame) : Prop :=
  Innermost Event.frame? (fun _ => False) history indent frame

/-- The component that encloses a line: none does from before a trigger line. -/
def EnclosingComponent (history : List Event) (indent : Nat) (cursor : ComponentCursor) : Prop :=
  Innermost Event.cursor? Event.isTrigger history indent cursor

/-- Who an attribute at an indent belongs to, by the lines before it. -/
inductive EnclosingOwner (history : List Event) (indent : Nat) : Owner → Prop
  | component (cursor : ComponentCursor) (h : EnclosingComponent history indent cursor) :
      EnclosingOwner history indent (.component cursor.name cursor.kind)
  | trigger (frame : Frame) (h : EnclosingTrigger history indent frame)
      (hfree : ∀ cursor, ¬EnclosingComponent history indent cursor) :
      EnclosingOwner history indent (.trigger frame.key frame.kind)

variable {α : Type} {opens : Event → Option α} {bars : Event → Prop}

theorem within_snoc {opening indent : Nat} {between : List Event} {e : Event} :
    Within opening (between ++ [e]) indent ↔ Within opening between (min e.indent indent) := by
  simp only [Within, List.mem_append, List.mem_singleton]
  constructor
  · rintro ⟨hindent, hall⟩
    have he := hall e (.inr rfl)
    exact ⟨by omega, fun l hl => hall l (.inl hl)⟩
  · rintro ⟨hmin, hall⟩
    refine ⟨by omega, ?_⟩
    rintro l (hl | rfl)
    · exact hall l hl
    · omega

theorem not_innermost_nil {indent : Nat} {x : α} : ¬Innermost opens bars [] indent x := by
  rintro ⟨earlier, e, later, h, _⟩
  simp at h

theorem snoc_eq_append_cons {β : Type} {l before after : List β} {e x : β} :
    l ++ [e] = before ++ x :: after ↔
      (before = l ∧ x = e ∧ after = []) ∨ ∃ rest, after = rest ++ [e] ∧ l = before ++ x :: rest := by
  constructor
  · intro h
    rcases List.eq_nil_or_concat after with rfl | ⟨rest, last, rfl⟩
    · obtain ⟨rfl, hx⟩ := List.append_inj' h rfl
      exact .inl ⟨rfl, (List.singleton_inj.1 hx).symm, rfl⟩
    · have h' : l ++ [e] = (before ++ x :: rest) ++ [last] := by simpa using h
      obtain ⟨rfl, hlast⟩ := List.append_inj' h' rfl
      rw [List.concat_eq_append, ← List.singleton_inj.1 hlast]
      exact .inr ⟨rest, rfl, rfl⟩
  · rintro (⟨rfl, rfl, rfl⟩ | ⟨rest, rfl, rfl⟩)
    · rfl
    · simp

/-- One more line either is the one that counts, or is looked past. -/
theorem innermost_snoc {history : List Event} {e : Event} {indent : Nat} {x : α} :
    Innermost opens bars (history ++ [e]) indent x ↔
      (opens e = some x ∧ e.indent < indent) ∨
      (¬bars e ∧ ((opens e).isSome → indent ≤ e.indent) ∧
        Innermost opens bars history (min e.indent indent) x) := by
  constructor
  · rintro ⟨earlier, f, later, heq, hopens, hwithin, hbars, hlatest⟩
    rcases snoc_eq_append_cons.1 heq with ⟨_, rfl, rfl⟩ | ⟨later, rfl, rfl⟩
    · exact .inl ⟨hopens, hwithin.1⟩
    · refine .inr ⟨hbars e (by simp), ?_, earlier, f, later, rfl, hopens, within_snoc.1 hwithin,
        fun l hl => hbars l (by simp [hl]), ?_⟩
      · intro hsome
        have hpast := hlatest later e [] rfl hsome
        simp only [Within, List.not_mem_nil, false_implies, implies_true, and_true] at hpast
        omega
      · rintro before other after rfl hsome hother
        exact hlatest before other (after ++ [e]) (by simp) hsome (within_snoc.2 hother)
  · rintro (⟨hopens, hindent⟩ | ⟨hbar, hpast, earlier, f, later, rfl, hopens, hwithin, hbars, hlatest⟩)
    · refine ⟨history, e, [], rfl, hopens, ⟨hindent, by simp⟩, by simp, ?_⟩
      intro before other after h
      simp at h
    · refine ⟨earlier, f, later ++ [e], by simp, hopens, within_snoc.2 hwithin, ?_, ?_⟩
      · intro l hl
        rcases List.mem_append.1 hl with hl | hl
        · exact hbars l hl
        · rw [List.mem_singleton.1 hl]
          exact hbar
      · intro before other after h hsome hother
        rcases snoc_eq_append_cons.1 h with ⟨_, rfl, rfl⟩ | ⟨rest, rfl, rfl⟩
        · have hle := hpast hsome
          have hlt := hother.1
          omega
        · exact hlatest before other rest rfl hsome (within_snoc.1 hother)

namespace Reader

variable {c : Catalog} {strict : Bool} {r r' : Reader} {history : List Event}

/-- For a line at any indent, what the reader would leave open is what encloses the line. -/
structure Tracks (history : List Event) (r : Reader) : Prop where
  orderly : Orderly r
  frame_iff : ∀ indent frame,
    (r.settle indent).frames.head? = some frame ↔ EnclosingTrigger history indent frame
  component_iff : ∀ indent cursor,
    (r.settle indent).component = some cursor ↔ EnclosingComponent history indent cursor

theorem tracks_start : Tracks [] start where
  orderly := orderly_start
  frame_iff := by
    intro indent frame
    rw [EnclosingTrigger, iff_false_right not_innermost_nil, frames_settle]
    simp [start]
  component_iff := by
    intro indent cursor
    rw [EnclosingComponent, iff_false_right not_innermost_nil, component_settle]
    split <;> simp [start]

theorem Tracks.of_sameOpen (h : Tracks history r) (hopen : SameOpen r r') : Tracks history r' where
  orderly := h.orderly.of_sameOpen hopen
  frame_iff := by
    intro indent frame
    rw [frames_settle_congr hopen.frames_eq]
    exact h.frame_iff indent frame
  component_iff := by
    intro indent cursor
    rw [component_settle_congr hopen.frames_eq hopen.component_eq]
    exact h.component_iff indent cursor

theorem frames_of_opens {e : Event} (hopens : Opens r r' e) :
    r'.frames = e.frame?.toList ++ r.frames := by
  cases hopens with
  | trigger frame hframes => exact hframes
  | component cursor hfree hframes => exact hframes
  | plain indent hopen => exact hopen.frames_eq
  | assigned indent attr owner howner hopen => exact hopen.frames_eq

theorem closes_settle_of_le {first second : Nat} (h : first ≤ second) (r : Reader) :
    (r.settle first).closes second = false := by
  rw [closes, frames_settle]
  have hhead := List.head?_dropWhile_not (fun frame : Frame => decide (first ≤ frame.indent)) r.frames
  cases hframe : (r.frames.dropWhile (first ≤ ·.indent)).head? with
  | none => rfl
  | some frame =>
      rw [hframe] at hhead
      simp only [decide_eq_false_iff_not] at hhead
      simp only [Option.any_some, decide_eq_false_iff_not]
      omega

theorem head?_settle_of_opens {e : Event} {indent second : Nat} {frame : Frame}
    (hopens : Opens (r.settle indent) r' e) (hindent : e.indent = indent) :
    (r'.settle second).frames.head? = some frame ↔
      (e.frame? = some frame ∧ indent < second) ∨
      ((e.frame?.isSome → second ≤ indent) ∧
        ((r.settle indent).settle second).frames.head? = some frame) := by
  have hframes := frames_of_opens hopens
  cases hframe : e.frame? with
  | none =>
      rw [hframe] at hframes
      rw [frames_settle_congr hframes]
      simp
  | some opened =>
      rw [hframe] at hframes
      have hopened : opened.indent = indent := by
        cases e with
        | trigger other => cases hframe; exact hindent
        | component cursor => cases hframe
        | plain indent => cases hframe
      by_cases hin : indent < second
      · rw [frames_settle, hframes]
        simp [hopened, hin, Nat.not_le.2 hin]
      · have hdrop : (r'.settle second).frames = ((r.settle indent).settle second).frames := by
          rw [frames_settle, hframes, frames_settle second]
          exact List.dropWhile_cons_of_pos (by simp; omega)
        simp [hdrop, hin, Nat.not_lt.1 hin]

theorem component_settle_of_opens {e : Event} {indent second : Nat} {cursor : ComponentCursor}
    (hopens : Opens (r.settle indent) r' e) (hindent : e.indent = indent) :
    (r'.settle second).component = some cursor ↔
      (e.cursor? = some cursor ∧ indent < second) ∨
      (¬e.isTrigger ∧ (e.cursor?.isSome → second ≤ indent) ∧
        ((r.settle indent).settle second).component = some cursor) := by
  have hsame (hframes : r'.frames = (r.settle indent).frames)
      (hcomponent : r'.component = (r.settle indent).component) {n : Nat} :
      (r'.settle second).component = some cursor ↔
        ((Event.plain n).cursor? = some cursor ∧ indent < second) ∨
        ¬(Event.plain n).isTrigger ∧ ((Event.plain n).cursor?.isSome → second ≤ indent) ∧
          ((r.settle indent).settle second).component = some cursor := by
    rw [component_settle_congr hframes hcomponent]
    simp [Event.cursor?, Event.isTrigger]
  cases hopens with
  | trigger opened hframes htrigger hcomponent hattr =>
      rw [component_settle, hcomponent]
      simp [Event.cursor?, Event.isTrigger]
  | component opened hfree hframes htrigger hcomponent hattr =>
      have hopened : opened.indent = indent := hindent
      by_cases hin : indent < second
      · have hcloses : r'.closes second = false := by
          rw [closes, hframes]
          exact closes_settle_of_le (Nat.le_of_lt hin) r
        rw [component_settle, hcloses, hcomponent]
        simp [Event.cursor?, Event.isTrigger, Option.filter_some, hopened, hin, Nat.not_le.2 hin]
      · have hnone : ((r.settle indent).settle second).component = none := by
          rw [component_settle, hfree]
          split <;> rfl
        rw [hnone, component_settle, hcomponent]
        simp [Event.cursor?, Option.filter_some, hopened, hin]
  | plain n hopen => exact hsame hopen.frames_eq hopen.component_eq
  | assigned n attr owner howner hopen => exact hsame hopen.frames_eq hopen.component_eq

theorem Tracks.of_opens {e : Event} {indent : Nat} (h : Tracks history r)
    (hopens : Opens (r.settle indent) r' e) (hindent : e.indent = indent)
    (horderly : Orderly r') : Tracks (history ++ [e]) r' where
  orderly := horderly
  frame_iff second frame := by
    rw [EnclosingTrigger, innermost_snoc, ← EnclosingTrigger, hindent, ← h.frame_iff,
      ← frames_settle_settle, head?_settle_of_opens hopens hindent]
    simp only [not_false_eq_true, true_and]
  component_iff second cursor := by
    rw [EnclosingComponent, innermost_snoc, ← EnclosingComponent, hindent, ← h.component_iff,
      ← component_settle_settle, component_settle_of_opens hopens hindent]

def event? (c : Catalog) (line : List Char) (r : Reader) : Option Event :=
  if r.passes line then none else some ((r.ready line).eventOf c (indentOf line) (strip line))

def events (c : Catalog) (strict : Bool) (r : Reader) : List (List Char) → List Event
  | [] => []
  | line :: rest => (r.event? c line).toList ++ events c strict (r.step c strict line) rest

theorem component_lt_of_settle {indent : Nat} {cursor : ComponentCursor}
    (h : (r.settle indent).component = some cursor) : cursor.indent < indent := by
  rw [component_settle] at h
  split at h
  · cases h
  · simpa using (Option.filter_eq_some_iff.1 h).2

theorem Tracks.step (hglobal : c.isTriggerKind globalScope = false) (h : Tracks history r)
    (line : List Char) :
    Tracks (history ++ (r.event? c line).toList) (r.step c strict line) := by
  have hnext : Tracks history { r with line := r.line + 1 } := h.of_sameOpen ⟨rfl, rfl, rfl, rfl⟩
  cases hpasses : r.passes line with
  | true =>
      rw [step_of_passes hpasses, event?, if_pos hpasses]
      simpa using hnext
  | false =>
      rw [step_of_not_passes hpasses, event?, if_neg (ne_true_of_eq_false hpasses)]
      have hopens : Opens (r.ready line)
          ((r.ready line).dispatch c strict (indentOf line) (strip line))
          ((r.ready line).eventOf c (indentOf line) (strip line)) := opens_dispatch _ _ _
      have hindent := indent_eventOf c (indentOf line) (strip line) (r.ready line)
      refine hnext.of_opens hopens hindent ?_
      refine (hnext.orderly.settle (indentOf line)).of_opens hopens ?_ ?_
      · intro frame hframe
        obtain ⟨name, hheader, -⟩ := takesHeader_eventOf hframe
        have hkind := isTriggerKind_of_takesHeader hheader
        rw [Frame.isGlobal, beq_eq_false_iff_ne]
        rintro heq
        rw [heq, hglobal] at hkind
        cases hkind
      · intro cursor hcursor
        rw [hindent]
        exact component_lt_of_settle hcursor

theorem Tracks.run (hglobal : c.isTriggerKind globalScope = false) (lines : List (List Char)) :
    ∀ {history : List Event} {r : Reader}, Tracks history r →
      Tracks (history ++ r.events c strict lines) (readLines c strict r lines) := by
  induction lines with
  | nil =>
      intro history r h
      simpa [events, readLines] using h
  | cons line rest ih =>
      intro history r h
      have hstep : Tracks _ (r.step c strict line) := h.step hglobal line
      have htail := ih hstep
      rw [List.append_assoc] at htail
      exact htail

theorem tracks_readLines (hglobal : c.isTriggerKind globalScope = false) (strict : Bool)
    (lines : List (List Char)) :
    Tracks (start.events c strict lines) (readLines c strict start lines) := by
  simpa using tracks_start.run hglobal lines

theorem Tracks.scope_iff {indent : Nat} (h : Tracks history r) {frame : Frame} :
    (r.settle indent).scope = some frame ↔ EnclosingTrigger history indent frame := by
  rw [scope_of_named (h.orderly.settle indent).named]
  exact h.frame_iff indent frame

theorem Tracks.owner_iff {indent : Nat} (h : Tracks history r) {who : Owner} :
    (r.settle indent).owner = some who ↔ EnclosingOwner history indent who := by
  have htrigger : (r.settle indent).trigger = (r.settle indent).frames.head? :=
    (h.orderly.settle indent).trigger_eq
  rw [owner]
  cases hcomponent : (r.settle indent).component with
  | some cursor =>
      have hencloses := (h.component_iff indent cursor).1 hcomponent
      constructor
      · intro heq
        obtain rfl := Option.some.inj heq
        exact .component cursor hencloses
      · rintro (⟨other, hother⟩ | ⟨frame, hframe, hfree⟩)
        · rw [← h.component_iff, hcomponent] at hother
          rw [Option.some.inj hother]
        · exact absurd hencloses (hfree cursor)
  | none =>
      have hfree (cursor : ComponentCursor) : ¬EnclosingComponent history indent cursor := by
        rw [← h.component_iff, hcomponent]
        simp
      simp only [Option.map_eq_some_iff, htrigger]
      constructor
      · rintro ⟨frame, hframe, rfl⟩
        exact .trigger frame ((h.frame_iff indent frame).1 hframe) hfree
      · rintro (⟨other, hother⟩ | ⟨frame, hframe, -⟩)
        · exact absurd hother (hfree other)
        · exact ⟨frame, (h.frame_iff indent frame).2 hframe, rfl⟩

theorem componentAt?_step (strict : Bool) {r : Reader} {line : List Char} {cursor : ComponentCursor}
    (h : r.event? c line = some (.component cursor)) :
    ∃ x, (r.step c strict line).store.componentAt? (r.ready line).home cursor.kind cursor.name =
      some x := by
  rw [event?] at h
  split at h
  · cases h
  · next hread =>
      have hopens : Opens (r.ready line) (r.step c strict line)
          ((r.ready line).eventOf c (indentOf line) (strip line)) := by
        rw [step_of_not_passes (eq_false_of_ne_true hread)]
        exact opens_dispatch _ _ _
      have hevent : (r.ready line).eventOf c (indentOf line) (strip line) = .component cursor :=
        Option.some.inj h
      rw [hevent] at hopens
      cases hopens with
      | component _ _ _ _ _ _ hstored => exact hstored

theorem attributeAt?_step (c : Catalog) (strict : Bool) (lines : List (List Char)) {line text : List Char}
    {who : Owner} {attr : String}
    (h : (readLines c strict start lines).assignment? c line = some ((who, attr), text)) :
    let before := readLines c strict start lines
    (before.ready line).owner = some who ∧
    (before.step c strict line).store.attributeAt? (before.ready line).home who attr =
      some (.ok (assign strict who attr (schemaOf c who attr) (before.store.read who attr) text
        (before.store.nameInfo? (String.ofList text))).attr) := by
  intro before
  obtain ⟨howner, hstep⟩ := step_of_assignment? strict h
  have hready : Founded c (before.ready line) := (founded_readLines c strict lines).ready line
  have hstore : (before.ready line).store = before.store := store_settle ..
  have hhome : ∀ name kind, who = .component name kind →
      ∃ x, (before.ready line).store.componentAt? (before.ready line).home kind name = some x := by
    rintro name kind rfl
    obtain ⟨cursor, hcursor, rfl, rfl⟩ := owner_eq_component howner
    exact hready.housed.component_home cursor hcursor
  refine ⟨howner, ?_⟩
  rw [hstep, ← hstore]
  exact Store.attributeAt?_write hready.readable hready.housed.coherent (hready.reaches.owner howner)
    hhome attr _

theorem declares_step (c : Catalog) (strict : Bool) (lines : List (List Char)) {line : List Char}
    {home : Option String} {name : String} {value : Value}
    (h : (readLines c strict start lines).declared? c strict line = some ((home, name), value)) :
    let before := readLines c strict start lines
    home = (before.ready line).home ∧
    Store.Assigns home name value before.store (before.step c strict line).store ∧
    Store.Declares home name value before.store (before.step c strict line).store := by
  intro before
  have hscoped := scoped_readLines c strict lines scoped_start
  have hstore : (before.ready line).store = before.store := store_settle ..
  obtain ⟨hpasses, hword⟩ := declares_of_declared? h
  obtain ⟨hnone, -⟩ | ⟨home', name', value', hdeclared, hassigns, hdeclares, -⟩ :=
    declares_or_kept hscoped c strict hpasses hword
  · rw [hnone] at h
    cases h
  · rw [hdeclared] at h
    cases h
    rw [hstore] at hassigns hdeclares
    exact ⟨home_of_declared? hdeclared, hassigns, hdeclares⟩

/-- The scope of a line is that of the innermost trigger that encloses it, and an attribute belongs to
the innermost component, or else the trigger. What the line stores goes there and nowhere else: a
component or a variable that it adds is in this scope, a value that it gives to a variable is with this
trigger, and an attribute that it writes is with this owner. -/
theorem line_belongs_where_enclosed (hglobal : c.isTriggerKind globalScope = false) (strict : Bool)
    (lines : List (List Char)) {line : List Char}
    (hread : (readLines c strict start lines).passes line = false) :
    let history := start.events c strict lines
    let before := readLines c strict start lines
    let here := before.ready line
    let after := before.step c strict line
    (∀ frame, here.scope = some frame ↔ EnclosingTrigger history (indentOf line) frame) ∧
    (∀ who, here.owner = some who ↔ EnclosingOwner history (indentOf line) who) ∧
    Effect c strict here (here.classify c (indentOf line) (String.ofList (firstWord (strip line))))
      after.store ∧
    Store.Confined here.home here.owner before.store after.store ∧
    (∀ cursor, before.event? c line = some (.component cursor) →
      ∃ x, after.store.componentAt? here.home cursor.kind cursor.name = some x) ∧
    (∀ home name value, before.declared? c strict line = some ((home, name), value) →
      home = here.home ∧ Store.Assigns home name value before.store after.store ∧
      Store.Declares home name value before.store after.store) ∧
    (∀ who attr text, before.assignment? c line = some ((who, attr), text) →
      here.owner = some who ∧ after.store.attributeAt? here.home who attr =
        some (.ok (assign strict who attr (schemaOf c who attr) (before.store.read who attr) text
          (before.store.nameInfo? (String.ofList text))).attr)) := by
  intro history before here after
  have htracks : Tracks history { before with line := before.line + 1 } :=
    (tracks_readLines hglobal strict lines).of_sameOpen ⟨rfl, rfl, rfl, rfl⟩
  have hnext : Housed { before with line := before.line + 1 } :=
    ⟨(housed_readLines c strict lines).coherent, (housed_readLines c strict lines).component_home⟩
  have hhoused : Housed here := hnext.settle (indentOf line)
  have hafter : after = here.dispatch c strict (indentOf line) (strip line) := step_of_not_passes hread
  have heffect := @effect_dispatch c strict here (indentOf line) (strip line)
  rw [← hafter] at heffect
  have hstore : here.store = before.store := store_settle ..
  refine ⟨fun _ => htracks.scope_iff, fun _ => htracks.owner_iff, heffect, ?_,
    fun _ => componentAt?_step strict, fun _ _ _ => declares_step c strict lines,
    fun _ _ _ => attributeAt?_step c strict lines⟩
  rw [← hstore]
  exact heffect.confined hhoused.coherent hhoused.component_home
    (htracks.orderly.settle (indentOf line)).owner_attr

def noteCatalog : Catalog :=
  ⟨.ofList [("lfo", ⟨"lfo", .modulator, .empty, .null⟩)],
    .ofList [("note", ⟨"note", .bool true, .bool true, .bool true, .bool true, .empty, .null⟩)], .empty⟩

def noteLines : List (List Char) :=
  ["note c4".toList, "  lfo wobble".toList, "    rate 5".toList]

theorem trigger_owns_after_component :
    let lines := "variable level = 1".toList :: noteLines
    let before := readLines noteCatalog false start lines
    let after := fun line : String => (before.step noteCatalog false line.toList).store
    let three : Value := .literal (.int 3)
    (∀ line ∈ ["  velocity 3", "  variable level = 3", "  variable depth = 3", "    width 3"],
      before.passes line.toList = false) ∧
    EnclosingOwner (start.events noteCatalog false lines) 2 (.trigger "note_c4" "note") ∧
    (∃ a, (after "  velocity 3").triggerCell? "note_c4" "velocity" = some (.ok a) ∧
      a.value = some three) ∧
    (∃ a, (after "    width 3").attributeAt? (some "note_c4") (.component "wobble" "lfo") "width" =
      some (.ok a) ∧ a.value = some three) ∧
    (∃ value, (after "  variable level = 3").override? "level" "note_c4" = some (some value)) ∧
    ∃ v, (after "  variable depth = 3").variableAt? (some "note_c4") "depth" = some v := by
  intro lines before after three
  have hread : ∀ line ∈ ["  velocity 3", "  variable level = 3", "  variable depth = 3", "    width 3"],
      before.passes line.toList = false := by
    decide +kernel
  have hplaced (line : String) (h : before.passes line.toList = false) :=
    line_belongs_where_enclosed (c := noteCatalog) (by decide +kernel) false lines h
  have hdeclared (line name : String)
      (h : (before.declared? noteCatalog false line.toList).map Prod.fst = some (some "note_c4", name)) :
      ∃ value, before.declared? noteCatalog false line.toList = some ((some "note_c4", name), value) := by
    obtain ⟨⟨_, value⟩, heq, rfl⟩ := Option.map_eq_some_iff.1 h
    exact ⟨value, heq⟩
  refine ⟨hread, ?_, ?_, ?_, ?_, ?_⟩
  · obtain ⟨-, howner, -⟩ := hplaced "  velocity 3" (hread _ (by simp))
    exact (howner _).1 (by decide +kernel)
  · obtain ⟨-, -, -, -, -, -, hwritten⟩ := hplaced "  velocity 3" (hread _ (by simp))
    exact ⟨_, (hwritten (.trigger "note_c4" "note") "velocity" "3".toList (by decide +kernel)).2, rfl⟩
  · obtain ⟨-, -, -, -, -, -, hwritten⟩ := hplaced "    width 3" (hread _ (by simp))
    have hfound := (hwritten (.component "wobble" "lfo") "width" "3".toList (by decide +kernel)).2
    have hhome : (before.ready "    width 3".toList).home = some "note_c4" := by decide +kernel
    rw [hhome] at hfound
    exact ⟨_, hfound, rfl⟩
  · obtain ⟨-, -, -, -, -, hgiven, -⟩ := hplaced "  variable level = 3" (hread _ (by simp))
    obtain ⟨value, hvalue⟩ := hdeclared "  variable level = 3" "level" (by decide +kernel)
    obtain ⟨-, -, hstored⟩ := hgiven _ _ _ hvalue
    have hinfo : before.store.nameInfo? "level" = some ⟨.global, variableKind, none⟩ := by decide +kernel
    exact ⟨value, hstored.override? rfl hinfo⟩
  · obtain ⟨-, -, -, -, -, hgiven, -⟩ := hplaced "  variable depth = 3" (hread _ (by simp))
    obtain ⟨value, hvalue⟩ := hdeclared "  variable depth = 3" "depth" (by decide +kernel)
    obtain ⟨-, -, hstored⟩ := hgiven _ _ _ hvalue
    have hfree : before.store.nameInfo? "depth" = none := by decide +kernel
    obtain ⟨v, hv, -⟩ := hstored.variableAt? (.inr hfree)
    exact ⟨v, hv⟩

end Reader

end Document

end Instrument
