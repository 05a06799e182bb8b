import Instrument.Proofs.Findings
import Instrument.Proofs.Relaying
import Mathlib.Order.Monotone.Basic

namespace Instrument.Document

open Text

/-- A line with other spaces and tabs before it, which measure what `f` says, and more spaces after. -/
inductive Relaid (f : Nat → Nat) : List Char → List Char → Prop
  | intro (lead lead' body trail : List Char) (hlead : ∀ ch ∈ lead, ch = ' ' ∨ ch = '\t')
      (hlead' : ∀ ch ∈ lead', ch = ' ' ∨ ch = '\t') (hbody : ∀ ch ∈ body.head?, ch ≠ ' ' ∧ ch ≠ '\t')
      (htrail : ∀ ch ∈ trail, ch = ' ') (hindent : indentOf lead' = f (indentOf lead)) :
      Relaid f (lead ++ body) (lead' ++ body ++ trail)

/-- Some lines laid out otherwise, from the line after the `n`th on, which becomes the line after the
`n'`th. Where lines are inserted, `ρ` says what number each of the old lines gets. -/
inductive Laid (f ρ : Nat → Nat) : Nat → Nat → List (List Char) → List (List Char) → Prop
  | done (n n' : Nat) : Laid f ρ n n' [] []
  | inserted {n n' : Nat} {rest rest' : List (List Char)} (line : List Char)
      (hline : saysNothing (strip line) = true) (hrest : Laid f ρ n (n' + 1) rest rest') :
      Laid f ρ n n' rest (line :: rest')
  | kept {n n' : Nat} {line line' : List Char} {rest rest' : List (List Char)}
      (hline : Relaid f line line') (hnumber : ρ (n + 1) = n' + 1)
      (hrest : Laid f ρ (n + 1) (n' + 1) rest rest') : Laid f ρ n n' (line :: rest) (line' :: rest')

def widthsOf (lines : List (List Char)) : Set Nat :=
  {width | width = 0 ∨ ∃ line ∈ lines, indentOf line = width}

theorem isBlank_of_lead {lead : List Char} (h : ∀ ch ∈ lead, ch = ' ' ∨ ch = '\t') :
    ∀ ch ∈ lead, isBlank ch = true := by
  intro ch hch
  rcases h ch hch with rfl | rfl <;> decide

theorem stripStart_append {lead : List Char} (h : ∀ ch ∈ lead, isBlank ch = true) (cs : List Char) :
    stripStart (lead ++ cs) = stripStart cs :=
  List.dropWhile_append_of_pos h

theorem stripEnd_append {trail : List Char} (h : ∀ ch ∈ trail, isBlank ch = true) (cs : List Char) :
    stripEnd (cs ++ trail) = stripEnd cs := by
  induction cs with
  | nil => exact stripEnd_eq_nil h
  | cons ch cs ih => rw [List.cons_append, stripEnd, stripEnd, ih]

theorem strip_append {trail : List Char} (h : ∀ ch ∈ trail, isBlank ch = true) (cs : List Char) :
    strip (cs ++ trail) = strip cs := by
  by_cases hall : ∀ ch ∈ cs, isBlank ch = true
  · rw [strip_eq_nil hall, strip_eq_nil]
    intro ch hch
    exact (List.mem_append.1 hch).elim (hall ch) (h ch)
  · have hstart : stripStart (cs ++ trail) = stripStart cs ++ trail := by
      rw [stripStart, List.dropWhile_append, if_neg]
      · rfl
      · rw [List.isEmpty_iff, List.dropWhile_eq_nil_iff]
        exact hall
    rw [strip, hstart, stripEnd_append h, strip]

theorem indentOf_append {lead body : List Char} (h : ∀ ch ∈ lead, ch = ' ' ∨ ch = '\t')
    (hbody : ∀ ch ∈ body.head?, ch ≠ ' ' ∧ ch ≠ '\t') : indentOf (lead ++ body) = indentOf lead := by
  induction lead with
  | nil =>
      cases body with
      | nil => rfl
      | cons ch cs =>
          obtain ⟨hspace, htab⟩ := hbody ch rfl
          rw [List.nil_append, indentOf]
          · rfl
          · rintro cs' ⟨⟩
            exact hspace rfl
          · rintro cs' ⟨⟩
            exact htab rfl
  | cons ch lead ih =>
      obtain ⟨hch, hlead⟩ := List.forall_mem_cons.1 h
      rcases hch with rfl | rfl
      · rw [List.cons_append, indentOf, indentOf, ih hlead]
      · rw [List.cons_append, indentOf, indentOf, ih hlead]

theorem Relaid.strip_eq {f : Nat → Nat} {line line' : List Char} (h : Relaid f line line') :
    strip line' = strip line := by
  cases h with
  | intro lead lead' body trail hlead hlead' hbody htrail hindent =>
      have hblank : ∀ ch ∈ trail, isBlank ch = true := by
        intro ch hch
        rw [htrail ch hch]
        decide
      rw [strip_append hblank, strip, strip, stripStart_append (isBlank_of_lead hlead),
        stripStart_append (isBlank_of_lead hlead')]

theorem Relaid.indentOf_eq {f : Nat → Nat} {line line' : List Char} (h : Relaid f line line')
    (hcontent : saysNothing (strip line) = false) : indentOf line' = f (indentOf line) := by
  cases h with
  | intro lead lead' body trail hlead hlead' hbody htrail hindent =>
      have hsome : ∃ ch cs, body = ch :: cs := by
        cases body with
        | nil =>
            rw [List.append_nil, strip_eq_nil (isBlank_of_lead hlead)] at hcontent
            cases hcontent
        | cons ch cs => exact ⟨ch, cs, rfl⟩
      obtain ⟨ch, cs, rfl⟩ := hsome
      have hbody' : ∀ ch' ∈ (ch :: cs ++ trail).head?, ch' ≠ ' ' ∧ ch' ≠ '\t' := hbody
      rw [List.append_assoc, indentOf_append hlead' hbody', indentOf_append hlead hbody, hindent]

theorem Laid.number_gt {f ρ : Nat → Nat} {n n' : Nat} {lines lines' : List (List Char)}
    (h : Laid f ρ n n' lines lines') {i : Nat} (hi : n < i) (hi' : i ≤ n + lines.length) : n' < ρ i := by
  induction h with
  | done n n' =>
      rw [List.length_nil] at hi'
      omega
  | inserted line hline hrest ih => exact Nat.lt_of_succ_lt (ih hi hi')
  | @kept n n' line line' rest rest' hline hnumber hrest ih =>
      rw [List.length_cons] at hi'
      rcases Nat.eq_or_lt_of_le (Nat.succ_le_of_lt hi) with rfl | hlt
      · rw [hnumber]
        exact Nat.lt_succ_self n'
      · exact Nat.lt_of_succ_lt (ih hlt (by omega))

theorem Laid.number_lt {f ρ : Nat → Nat} {n n' : Nat} {lines lines' : List (List Char)}
    (h : Laid f ρ n n' lines lines') {i j : Nat} (hi : n < i) (hij : i < j)
    (hj : j ≤ n + lines.length) : ρ i < ρ j := by
  induction h with
  | done n n' =>
      rw [List.length_nil] at hj
      omega
  | inserted line hline hrest ih => exact ih hi hj
  | @kept n n' line line' rest rest' hline hnumber hrest ih =>
      rw [List.length_cons] at hj
      rcases Nat.eq_or_lt_of_le (Nat.succ_le_of_lt hi) with rfl | hlt
      · have hlater : n' + 1 < ρ j := hrest.number_gt hij (by omega)
        rw [hnumber]
        exact hlater
      · exact ih hlt (by omega)

theorem Laid.order {f ρ : Nat → Nat} {n n' : Nat} {lines lines' : List (List Char)}
    (h : Laid f ρ n n' lines lines') {i j : Nat} (hi : n < i) (hi' : i ≤ n + lines.length) (hj : n < j)
    (hj' : j ≤ n + lines.length) : i ≤ j ↔ ρ i ≤ ρ j := by
  constructor
  · intro hle
    rcases Nat.eq_or_lt_of_le hle with rfl | hlt
    · exact Nat.le_refl _
    · exact (h.number_lt hi hlt hj').le
  · intro hle
    by_contra hlt
    exact absurd hle (Nat.not_le.2 (h.number_lt hj (Nat.not_le.1 hlt) hi'))

namespace Reader

variable {f ρ : Nat → Nat} {c : Catalog} {strict : Bool} {r : Reader} {widths : Set Nat} {n n' : Nat}
  {line line' : List Char} {lines lines' : List (List Char)}

theorem skip_declareHere (name : String) (value : Value) (range : Option Interval) :
    (r.declareHere c name value range).skip = r.skip := by
  simp only [declareHere, declareGlobal, declareIn]
  repeat' split
  all_goals rfl

theorem skip_dispatch (indent : Nat) (content : List Char) :
    (r.dispatch c strict indent content).skip = r.skip ∨
      (r.dispatch c strict indent content).skip = some indent := by
  rw [dispatch]
  cases r.classify c indent (String.ofList (firstWord content)) with
  | declaration =>
      rw [act]
      obtain h | ⟨name, value, range, told, htold, h⟩ := declare_cases c content r
      · rw [h]
        exact .inl rfl
      · rw [h, skip_declareHere]
        rcases htold with rfl | ⟨complaint, rfl⟩ <;> exact .inl rfl
  | trigger =>
      rw [act]
      obtain ⟨-, complaint, h⟩ | ⟨frame, told, -, htold, h⟩ := openTrigger_cases c indent content r
      · rw [h]
        exact .inr rfl
      · rw [h]
        rcases htold with rfl | ⟨complaint, rfl⟩ <;> exact .inl rfl
  | modulation =>
      simp only [act, modulate, attach]
      repeat' split
      all_goals exact .inl rfl
  | assignment =>
      rw [act]
      obtain ⟨complaint, h⟩ | ⟨owner, attr, text, -, h⟩ := assignLine_cases c strict indent content r
      · rw [h]
        exact .inl rfl
      · rw [h, skip_writeLine]
        exact .inl rfl
  | component =>
      rw [act]
      obtain ⟨-, h⟩ | ⟨told, complaint, htold, h⟩ := openComponent_cases c indent content r
      · rw [h]
        exact .inl rfl
      · rw [h]
        exact .inr rfl

theorem Measured.of_opens {r' : Reader} {e : Event} (h : Measured widths r) (hopens : Opens r r' e)
    (hindent : e.indent ∈ widths) (hskip : ∀ indent, r'.skip = some indent → indent ∈ widths) :
    Measured widths r' := by
  cases hopens with
  | trigger frame hframes htrigger hcomponent hattr =>
      refine ⟨?_, by simp [hcomponent], by simp [hattr], hskip⟩
      rw [hframes, List.forall_mem_cons]
      exact ⟨hindent, h.frame⟩
  | component cursor hfree hframes htrigger hcomponent hattr =>
      refine ⟨?_, ?_, by simp [hattr], hskip⟩
      · rw [hframes]
        exact h.frame
      · intro other hother
        rw [hcomponent] at hother
        rw [← Option.some.inj hother]
        exact hindent
  | plain indent hopen =>
      refine ⟨?_, ?_, ?_, hskip⟩
      · rw [hopen.frames_eq]
        exact h.frame
      · rw [hopen.component_eq]
        exact h.component
      · rw [hopen.attr_eq]
        exact h.attr
  | assigned indent attr owner howner hopen =>
      refine ⟨?_, ?_, ?_, hskip⟩
      · rw [hopen.frames_eq]
        exact h.frame
      · rw [hopen.component_eq]
        exact h.component
      · rw [hopen.attr_eq]
        intro cursor hcursor
        rw [← Option.some.inj hcursor]
        exact hindent

theorem Measured.step (h : Measured widths r) (hline : indentOf line ∈ widths) :
    Measured widths (r.step c strict line) := by
  cases hpasses : r.passes line with
  | true =>
      rw [step_of_passes hpasses]
      exact ⟨h.frame, h.component, h.attr, h.skip⟩
  | false =>
      have hnext : Measured widths { r with line := r.line + 1 } := ⟨h.frame, h.component, h.attr, h.skip⟩
      have hready : Measured widths (r.ready line) := hnext.settle (indentOf line)
      rw [step_of_not_passes hpasses]
      refine hready.of_opens (opens_dispatch ..) ?_ ?_
      · rwa [indent_eventOf]
      · intro indent hsome
        rcases skip_dispatch (c := c) (r := r.ready line) (indentOf line) (strip line) with hsame | hrefused
        · rw [hsame] at hsome
          exact hready.skip indent hsome
        · rw [hrefused] at hsome
          rwa [← Option.some.inj hsome]

theorem measured_start : Measured widths start := by
  constructor <;> simp [start]

theorem causeToStop?_relay (before after : Reader) (line : Nat) :
    causeToStop? { before.relay f ρ with line } (after.relay f ρ) = causeToStop? before after := by
  simp only [causeToStop?, relay, List.length_map, ← List.map_drop, List.findSome?_map]
  rfl

section Simulation

variable (hf : StrictMonoOn f widths) (hzero : f 0 = 0) (hwidth : 0 ∈ widths)
include hf hzero hwidth

theorem step_relay (hr : Measured widths r) (hindent : indentOf line ∈ widths)
    (hline : Relaid f line line') (hnumber : ρ (r.line + 1) = n' + 1) :
    ({ r.relay f ρ with line := n' } : Reader).step c strict line' =
      (r.step c strict line).relay f ρ := by
  have hnext : ({ r.relay f ρ with line := n' + 1 } : Reader) =
      ({ r with line := r.line + 1 } : Reader).relay f ρ := by
    rw [← hnumber]
    rfl
  cases hcontent : saysNothing (strip line) with
  | true =>
      have hpasses : r.passes line = true := by rw [passes, hcontent, Bool.true_or]
      have hpasses' : ({ r.relay f ρ with line := n' } : Reader).passes line' = true := by
        rw [passes, hline.strip_eq, hcontent, Bool.true_or]
      rw [step_of_passes hpasses, step_of_passes hpasses']
      exact hnext
  | false =>
      have hindent' := hline.indentOf_eq hcontent
      have hsame : ({ r.relay f ρ with line := n' } : Reader).passes line' = r.passes line := by
        rw [passes, passes, hline.strip_eq, hindent']
        exact congrArg _ (skips_relay hf hr hindent ρ)
      cases hpasses : r.passes line with
      | true =>
          rw [step_of_passes hpasses, step_of_passes (hsame.trans hpasses)]
          exact hnext
      | false =>
          have hmeasured : Measured widths { r with line := r.line + 1 } :=
            ⟨hr.frame, hr.component, hr.attr, hr.skip⟩
          have hready : ({ r.relay f ρ with line := n' } : Reader).ready line' =
              (r.ready line).relay f ρ := by
            rw [ready, ready, hindent', ← settle_relay hf hmeasured hindent ρ, ← hnext]
          have hcompare : f (indentOf line) = 0 ↔ indentOf line = 0 := by
            have hle := hf.le_iff_le hindent hwidth
            rw [hzero] at hle
            omega
          rw [step_of_not_passes hpasses, step_of_not_passes (hsame.trans hpasses), hready,
            hline.strip_eq, hindent', dispatch_relay _ _ _ _ _ hcompare]

/-- The simulation of one reading by the other. -/
theorem readLines_relay (hlaid : Laid f ρ n n' lines lines') (hlines : ∀ line ∈ lines, indentOf line ∈ widths) :
    ∀ {r : Reader}, r.line = n → Measured widths r →
      (∃ last, readLines c strict { r.relay f ρ with line := n' } lines' =
        { (readLines c strict r lines).relay f ρ with line := last }) ∧
      worded c strict { r.relay f ρ with line := n' } lines' = worded c strict r lines := by
  induction hlaid with
  | done n n' =>
      intro r _ _
      exact ⟨⟨n', rfl⟩, rfl⟩
  | @inserted n n' rest rest' line hline hrest ih =>
      intro r hat hr
      have hpasses : ({ r.relay f ρ with line := n' } : Reader).passes line = true := by
        rw [passes, hline, Bool.true_or]
      have hstep : Reader.step c strict _ line = _ := step_of_passes hpasses
      obtain ⟨hread, hworded⟩ := ih hlines hat hr
      refine ⟨?_, ?_⟩
      · change ∃ last, readLines c strict (Reader.step c strict _ line) rest' = _
        rw [hstep]
        exact hread
      · rw [worded, hstep]
        refine Eq.trans ?_ hworded
        simp [causeToStop?]
  | @kept n n' line line' rest rest' hline hnumber hrest ih =>
      intro r hat hr
      obtain ⟨hhere, hlater⟩ := List.forall_mem_cons.1 hlines
      rw [← hat] at hnumber
      have hstep : _ = (r.step c strict line).relay f ρ := step_relay hf hzero hwidth hr hhere hline hnumber
      have hcount : (r.step c strict line).line = n + 1 := by rw [line_step, hat]
      have hsame : (r.step c strict line).relay f ρ =
          { (r.step c strict line).relay f ρ with line := n' + 1 } := by
        have hline : ((r.step c strict line).relay f ρ).line = n' + 1 := by
          rw [← hnumber, hat, ← hcount]
          rfl
        rw [← hline]
      obtain ⟨hread, hworded⟩ := ih hlater hcount (hr.step hhere)
      refine ⟨?_, ?_⟩
      · change ∃ last, readLines c strict (Reader.step c strict _ line') rest' = _
        rw [hstep, hsame]
        exact hread
      · rw [worded, worded, hstep, causeToStop?_relay, hsame, hworded]

end Simulation

theorem store_foldl_renumber (todo : List (Owner × String)) :
    ∀ {now now' : Reader}, now'.store = now.store.renumber ρ →
      (todo.foldl (bindAttribute c strict) now').store =
        (todo.foldl (bindAttribute c strict) now).store.renumber ρ := by
  induction todo with
  | nil =>
      intro now now' h
      exact h
  | cons target rest ih =>
      intro now now' h
      refine ih ?_
      have hnames : ∀ name, now'.store.nameInfo? name = now.store.nameInfo? name := by
        intro name
        rw [h, Store.nameInfo?_renumber]
      rw [store_bindAttribute, store_bindAttribute, boundAttribute_congr hnames, h, Store.read_renumber,
        Store.write_renumber]

theorem store_conclude_renumber {r' : Reader} (h : r'.store = r.store.renumber ρ) :
    (r'.conclude c strict).store = (r.conclude c strict).store.renumber ρ := by
  have htargets : targets r'.store = targets r.store := by
    rw [h]
    rfl
  simp only [conclude, bindAll, htargets]
  exact store_foldl_renumber (targets r.store) h

/-- The number of a line that is written down for an attribute is renewed like all others. -/
theorem lineFor_relay {table : AttributeLines} {target : Owner × String}
    (h : (table.lookup target).isSome) (r r' : Reader) :
    lineFor (table.map fun entry => (entry.1, ρ entry.2)) target r' = ρ (lineFor table target r) := by
  have hlookup : (table.map fun entry => (entry.1, ρ entry.2)).lookup target =
      (table.lookup target).map ρ := by
    clear h
    induction table with
    | nil => rfl
    | cons entry rest ih =>
        obtain ⟨owner, line⟩ := entry
        rw [List.map_cons, List.lookup_cons, List.lookup_cons, ih]
        cases target == owner <;> rfl
  obtain ⟨line, hline⟩ := Option.isSome_iff_exists.1 h
  rw [lineFor, lineFor, hlookup, hline]
  rfl

theorem toldOfModulator_relay {target : Owner × String} {b : Attribute}
    (h : (modulationComplaint? c target r.store b).isSome → (r.modulationLines.lookup target).isSome)
    (f : Nat → Nat) (last : Nat) :
    ({ r.relay f ρ with line := last } : Reader).toldOfModulator c target b =
      (r.toldOfModulator c target b).map (Issue.renumber ρ) := by
  have hsame : modulationComplaint? c target ({ r.relay f ρ with line := last } : Reader).store b =
      modulationComplaint? c target r.store b := rfl
  rw [toldOfModulator, toldOfModulator, hsame]
  cases hcomplaint : modulationComplaint? c target r.store b with
  | none => rfl
  | some complaint =>
      rw [hcomplaint] at h
      exact congrArg (fun line => [(⟨line, complaint⟩ : Issue)]) (lineFor_relay (h rfl) r _)

theorem told_relay (hr : r.store.Legible c) (hnoted : Noted r) {target : Owner × String}
    (htarget : target ∈ targets r.store) (f : Nat → Nat) (last : Nat) :
    ({ r.relay f ρ with line := last } : Reader).told c strict target =
      (r.told c strict target).map (Issue.renumber ρ) := by
  obtain ⟨cell, hcell⟩ := (mem_targets_of_legible hr).1 htarget
  obtain ⟨a, rfl⟩ := hr.readable _ _ _ hcell
  have hread := hcell.read_eq hr.coherent
  have hread' : ({ r.relay f ρ with line := last } : Reader).store.read target.1 target.2 = a :=
    (Store.read_renumber ..).trans hread
  have hbind : bindValue c strict target a ({ r.relay f ρ with line := last } : Reader).store =
      bindValue c strict target a r.store := rfl
  have hmodulated : _ = (r.toldOfModulator c target (bindValue c strict target a r.store).attr).map
      (Issue.renumber ρ) :=
    toldOfModulator_relay
      (fun hcomplaint => hnoted.modulation hcell (modulation_of_complaint hcomplaint)) f last
  rw [told, told, hread, hread', hbind, hmodulated, List.map_append]
  congr 1
  cases (bindValue c strict target a r.store).complaint with
  | none => rfl
  | some complaint =>
      exact congrArg (fun line => [(⟨line, complaint⟩ : Issue)]) (lineFor_relay (hnoted.cell hcell) r _)

theorem issues_conclude_relay {last : Nat} (hr : r.store.Legible c) (hnoted : Noted r)
    (hr' : ({ r.relay f ρ with line := last } : Reader).store.Legible c) (strict : Bool) :
    (Reader.conclude c strict { r.relay f ρ with line := last }).issues =
      (r.conclude c strict).issues.map (Issue.renumber ρ) := by
  rw [issues_conclude hr' strict, issues_conclude hr strict, List.map_append, List.map_flatMap]
  refine congrArg _ (List.flatMap_congr ?_)
  intro target htarget
  exact told_relay hr hnoted htarget f last

theorem WithinLines.conclude (h : WithinLines r) (hr : r.store.Legible c) (hnoted : Noted r)
    (strict : Bool) : ∀ issue ∈ (r.conclude c strict).issues, 0 < issue.line ∧ issue.line ≤ r.line := by
  intro issue hissue
  rw [issues_conclude hr strict, List.mem_append, List.mem_flatMap] at hissue
  rcases hissue with hline | ⟨target, htarget, htold⟩
  · exact h.issues issue hline
  · rcases mem_told hr hnoted htarget htold with hentry | hentry
    · exact h.attributes _ hentry
    · exact h.modulations _ hentry

theorem issuesWith_renumber {r' : Reader} {p : Issue → Bool}
    (hp : ∀ issue : Issue, p (issue.renumber ρ) = p issue)
    (hissues : r'.issues = r.issues.map (Issue.renumber ρ))
    (horder : ∀ a ∈ r.issues, ∀ b ∈ r.issues, (a.line ≤ b.line ↔ ρ a.line ≤ ρ b.line)) :
    r'.issuesWith p = (r.issuesWith p).map (Issue.renumber ρ) := by
  have hfilter : (r.issues.map (Issue.renumber ρ)).filter p = (r.issues.filter p).map (Issue.renumber ρ) := by
    rw [List.filter_map, Function.comp_def]
    simp only [hp]
  rw [issuesWith, issuesWith, hissues, hfilter]
  refine (List.map_mergeSort ?_).symm
  intro a ha b hb
  exact decide_eq_decide.2 (horder a (List.mem_of_mem_filter ha) b (List.mem_of_mem_filter hb))

end Reader

variable {f ρ : Nat → Nat} {c : Catalog} {text text' : String}

/-- The layout of a document does not matter. If no two indents compare otherwise, and none becomes or
ceases to be zero, then whatever spaces follow the lines, and whatever blank lines and comments stand
between them, the store is the same but for the numbers of the lines with variables, the same errors and
warnings are reported in the same order, and the lines can be worded as before. -/
theorem layout_invariant (hkinds : ∀ kind, c.isTriggerKind kind = true → '_' ∉ kind.toList)
    (hzero : f 0 = 0) (hf : StrictMonoOn f (widthsOf (Text.lines text.toList)))
    (hlaid : Laid f ρ 0 0 (Text.lines text.toList) (Text.lines text'.toList)) (strict : Bool) :
    (read c strict text').store = (read c strict text).store.renumber ρ ∧
      (read c strict text').errors = (read c strict text).errors.map (Issue.renumber ρ) ∧
      (read c strict text').warnings = (read c strict text).warnings.map (Issue.renumber ρ) ∧
      (trace c strict text').isOk = (trace c strict text).isOk := by
  have hkeys : DistinctKeys c := distinctKeys_of_no_underscore hkinds
  have hindents : ∀ line ∈ Text.lines text.toList, indentOf line ∈ widthsOf (Text.lines text.toList) :=
    fun line hline => .inr ⟨line, hline, rfl⟩
  obtain ⟨⟨last, hlast⟩, hworded⟩ :=
    @Reader.readLines_relay f ρ c strict _ 0 0 _ _ hf hzero (.inl rfl) hlaid hindents .start rfl
      Reader.measured_start
  generalize hfirst : readLines c strict .start (Text.lines text.toList) = first at hlast
  have hlegible : first.store.Legible c := by
    rw [← hfirst]
    exact (Reader.founded_readLines c strict _).legible
  have hnoted : Reader.Noted first := by
    rw [← hfirst]
    exact Reader.noted_readLines hkeys strict _
  have hwithin : Reader.WithinLines first := by
    rw [← hfirst]
    exact Reader.withinLines_readLines c strict _ Reader.withinLines_start
  have hread : read c strict text = first.conclude c strict := by rw [read, hfirst]
  have hread' : read c strict text' =
      Reader.conclude c strict { first.relay f ρ with line := last } := by
    rw [← hlast]
    rfl
  have hlegible' : ({ first.relay f ρ with line := last } : Reader).store.Legible c :=
    hlast ▸ (Reader.founded_readLines c strict (Text.lines text'.toList)).legible
  have hissues : (read c strict text').issues = (read c strict text).issues.map (Issue.renumber ρ) := by
    rw [hread, hread', Reader.issues_conclude_relay hlegible hnoted hlegible']
  have hcount : first.line = 0 + (Text.lines text.toList).length := by
    rw [← hfirst, Reader.line_readLines]
    rfl
  have hbounds := hwithin.conclude hlegible hnoted strict
  rw [← hread, hcount] at hbounds
  have horder : ∀ a ∈ (read c strict text).issues, ∀ b ∈ (read c strict text).issues,
      (a.line ≤ b.line ↔ ρ a.line ≤ ρ b.line) := by
    intro a ha b hb
    exact hlaid.order (hbounds a ha).1 (hbounds a ha).2 (hbounds b hb).1 (hbounds b hb).2
  refine ⟨?_, Reader.issuesWith_renumber (fun _ => rfl) hissues horder,
    Reader.issuesWith_renumber (fun _ => rfl) hissues horder, ?_⟩
  · rw [hread, hread']
    exact Reader.store_conclude_renumber rfl
  · rw [isOk_trace, isOk_trace, ← hworded]
    rfl

def roomyText : String := "variable speed = 3\nnote c4\n  mixer lead\n    source wobble"

def compactText : String :=
  "# patch\nvariable speed = 3\n\t\nnote c4 \n mixer lead\n   # below\n\tsource wobble"

def compactLine (n : Nat) : Nat := if n = 1 then 2 else if n < 4 then n + 2 else n + 3

theorem laid_compactText :
    Laid (· / 2) compactLine 0 0 (Text.lines roomyText.toList) (Text.lines compactText.toList) := by
  have hlines : Text.lines roomyText.toList = [[] ++ "variable speed = 3".toList, [] ++ "note c4".toList,
      [' ', ' '] ++ "mixer lead".toList, [' ', ' ', ' ', ' '] ++ "source wobble".toList] := by
    decide +kernel
  have hlines' : Text.lines compactText.toList = ["# patch".toList, [] ++ "variable speed = 3".toList ++ [],
      ['\t'], [] ++ "note c4".toList ++ [' '], [' '] ++ "mixer lead".toList ++ [], "   # below".toList,
      ['\t'] ++ "source wobble".toList ++ []] := by
    decide +kernel
  have hrelaid (lead lead' : List Char) (body : String) (trail : List Char)
      (hlead : lead.all (fun ch => ch == ' ' || ch == '\t') = true)
      (hlead' : lead'.all (fun ch => ch == ' ' || ch == '\t') = true)
      (hbody : body.toList.head?.all (fun ch => ch != ' ' && ch != '\t') = true)
      (htrail : trail.all (· == ' ') = true) (hindent : indentOf lead' = indentOf lead / 2) :
      Relaid (· / 2) (lead ++ body.toList) (lead' ++ body.toList ++ trail) := by
    refine .intro lead lead' body.toList trail (by simpa using hlead) (by simpa using hlead') ?_
      (by simpa using htrail) hindent
    intro ch hch
    rw [hch] at hbody
    simpa using hbody
  rw [hlines, hlines']
  refine .inserted _ (by decide +kernel) (.kept (hrelaid _ _ _ _ ?_ ?_ ?_ ?_ ?_) rfl ?_)
  any_goals decide +kernel
  refine .inserted _ (by decide +kernel) (.kept (hrelaid _ _ _ _ ?_ ?_ ?_ ?_ ?_) rfl ?_)
  any_goals decide +kernel
  refine .kept (hrelaid _ _ _ _ ?_ ?_ ?_ ?_ ?_) rfl ?_
  any_goals decide +kernel
  refine .inserted _ (by decide +kernel) (.kept (hrelaid _ _ _ _ ?_ ?_ ?_ ?_ ?_) rfl (.done ..))
  all_goals decide +kernel

theorem strictMonoOn_roomyText : StrictMonoOn (· / 2) (widthsOf (Text.lines roomyText.toList)) := by
  have hwidths : ∀ width ∈ widthsOf (Text.lines roomyText.toList), width % 2 = 0 := by
    rintro width (rfl | ⟨line, hline, rfl⟩)
    · rfl
    · revert line
      decide +kernel
  intro i hi j hj hij
  have := hwidths i hi
  have := hwidths j hj
  simp only
  omega

theorem layout_invariant_compactText :
    (read patchCatalog false compactText).store = (read patchCatalog false roomyText).store.renumber compactLine ∧
      (read patchCatalog false compactText).errors.map (·.line) = [7] ∧
      (read patchCatalog false roomyText).errors.map (·.line) = [4] := by
  obtain ⟨hstore, herrors, -, -⟩ :=
    layout_invariant no_underscore_patchCatalog rfl strictMonoOn_roomyText laid_compactText false
  have hline : (read patchCatalog false roomyText).errors.map (·.line) = [4] := by decide +kernel
  refine ⟨hstore, ?_, hline⟩
  rw [herrors, List.map_map]
  change (read patchCatalog false roomyText).errors.map (fun issue => compactLine issue.line) = [7]
  have hmap := congrArg (List.map compactLine) hline
  rw [List.map_map] at hmap
  exact hmap

end Instrument.Document
