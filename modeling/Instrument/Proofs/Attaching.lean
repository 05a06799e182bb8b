import Instrument.Proofs.Footprint
import Instrument.Proofs.Layout
import Instrument.Proofs.Rewording
import Instrument.Proofs.Strictness
import Mathlib.Data.List.Induction

namespace Instrument

namespace Store

variable {s t : Store} {who owner : Owner} {attr : String}

/-- An attribute that is there is written over, and all else is as it was. -/
structure Rewrites (owner : Owner) (attr : String) (old new : Attribute) (s t : Store) : Prop where
  before : s.cell? owner attr = some (.ok old)
  after : t.cell? owner attr = some (.ok new)
  outline_eq : t.outline = s.outline
  cell?_eq : ∀ who attr', ¬(who.bare = owner.bare ∧ attr' = attr) → t.cell? who attr' = s.cell? who attr'

theorem rewrites_write (hs : s.Coherent) (hread : s.Readable) {a : Attribute} (hbare : who.bare = owner.bare)
    (hcell : s.HasCell who attr (.ok a)) (new : Attribute) :
    Rewrites owner attr a new s (s.write owner attr new) := by
  have hknown := hcell.knows
  have hwrite : s.write owner attr new = s.setCell who attr (.ok new) := by
    rw [← s.write_of_bare hbare, hread.write_eq hs hknown]
  rw [hwrite]
  refine ⟨?_, ?_, outline_setCell hs hcell _, ?_⟩
  · rw [← s.cell?_of_bare hbare]
    exact (hs.cell?_eq_some hknown).2 hcell
  · rw [← cell?_of_bare hbare]
    exact cell?_setCell (hknown.component?_eq hs) _
  · intro other attr' hne
    rw [← hbare] at hne
    exact cell?_setCell_of_ne hne s

theorem read_of_hasCell (hs : s.Coherent) {a : Attribute} (hbare : who.bare = owner.bare)
    (hcell : s.HasCell who attr (.ok a)) : s.read owner attr = a := by
  rw [← s.read_of_bare hbare, hcell.read_eq hs]

end Store

namespace Document

open Text

/-- The latest of some lines at which something holds of the reader and the line, with something else at
every line after it. -/
def Latest (c : Catalog) (strict : Bool) (lines : List (List Char))
    (here after : Reader → List Char → Prop) : Prop :=
  ∃ earlier line later, lines = earlier ++ line :: later ∧ here (readLines c strict .start earlier) line ∧
    ∀ before other rest, later = before ++ other :: rest →
      after (readLines c strict .start (earlier ++ line :: before)) other

section Latest

variable {c : Catalog} {strict : Bool} {lines : List (List Char)} {line : List Char}
  {here after : Reader → List Char → Prop}

theorem not_latest_nil : ¬Latest c strict [] here after := by
  rintro ⟨earlier, line, later, h, -⟩
  simp at h

theorem latest_snoc : Latest c strict (lines ++ [line]) here after ↔
    here (readLines c strict .start lines) line ∨
      (Latest c strict lines here after ∧ after (readLines c strict .start lines) line) := by
  constructor
  · rintro ⟨earlier, first, later, heq, hhere, hafter⟩
    rcases snoc_eq_append_cons.1 heq with ⟨rfl, rfl, rfl⟩ | ⟨later, rfl, rfl⟩
    · exact .inl hhere
    · refine .inr ⟨⟨earlier, first, later, rfl, hhere, ?_⟩, hafter later line [] rfl⟩
      rintro before other rest rfl
      exact hafter before other (rest ++ [line]) (by simp)
  · rintro (hhere | ⟨⟨earlier, first, later, rfl, hhere, hafter⟩, hlast⟩)
    · exact ⟨lines, line, [], rfl, hhere, by simp⟩
    · refine ⟨earlier, first, later ++ [line], by simp, hhere, ?_⟩
      intro before other rest h
      rcases snoc_eq_append_cons.1 h with ⟨rfl, rfl, -⟩ | ⟨rest, -, rfl⟩
      · exact hlast
      · exact hafter before other rest rfl

end Latest

theorem readLines_snoc (c : Catalog) (strict : Bool) (r : Reader) (lines : List (List Char))
    (line : List Char) :
    readLines c strict r (lines ++ [line]) = (readLines c strict r lines).step c strict line :=
  Reader.readLines_append lines [line]

namespace Reader

variable {c : Catalog} {strict : Bool} {r : Reader} {line : List Char} {lines : List (List Char)}
  {cursor : AttributeCursor} {kind : LineKind} {t : Store}

def GivesTo (c : Catalog) (cursor : AttributeCursor) (r : Reader) (line : List Char) : Prop :=
  (∃ text, r.assignment? c line = some ((cursor.owner, cursor.name), text)) ∧ indentOf line = cursor.indent

/-- A line with content is indented deeper than another; it gives no attribute a value, and opens the
body of no trigger or component. -/
structure LiesUnder (c : Catalog) (opening : Nat) (r : Reader) (line : List Char) : Prop where
  deeper : saysNothing (strip line) = false → opening < indentOf line
  gives_nothing : r.assignment? c line = none
  opens_nothing : r.opensBody c line = false

/-- The attribute of the latest line for one, with nothing but lines under it since. -/
def LastOpen (c : Catalog) (strict : Bool) (lines : List (List Char)) (cursor : AttributeCursor) : Prop :=
  Latest c strict lines (GivesTo c cursor) (LiesUnder c cursor.indent)

/-- An open attribute lies deeper than the innermost trigger, and a refused line deeper than it. -/
structure Poised (r : Reader) : Prop where
  frame_lt : ∀ cursor, r.attr = some cursor → ∀ frame ∈ r.frames.head?, frame.indent < cursor.indent
  skip_lt : ∀ cursor, r.attr = some cursor → ∀ indent ∈ r.skip, cursor.indent < indent

theorem poised_start : Poised start := by
  constructor <;> simp [start]

theorem Poised.attr_ready_iff (h : Poised r) :
    (r.ready line).attr = some cursor ↔ r.attr = some cursor ∧ cursor.indent < indentOf line := by
  have hnext : ({ r with line := r.line + 1 } : Reader).closes (indentOf line) =
      r.closes (indentOf line) := rfl
  cases hcloses : r.closes (indentOf line) with
  | false =>
      rw [ready, (settle_of_not_closes (hnext.trans hcloses)).2.1, Option.filter_eq_some_iff,
        decide_eq_true_eq]
  | true =>
      rw [ready, (settle_of_closes (hnext.trans hcloses)).2.1]
      rw [closes, Option.any_eq_true] at hcloses
      obtain ⟨frame, hframe, hle⟩ := hcloses
      rw [decide_eq_true_eq] at hle
      constructor
      · intro hnone
        cases hnone
      · rintro ⟨hattr, hdeeper⟩
        have hlt := h.frame_lt cursor hattr frame hframe
        omega

theorem assignment?_of_passes (h : r.passes line = true) : r.assignment? c line = none := by
  simp [assignment?, h]

theorem opensBody_of_passes (h : r.passes line = true) : r.opensBody c line = false := by
  rw [opensBody, event?, if_pos h]
  rfl

theorem attr_writeLine (indent : Nat) (owner : Owner) (attr : String) (text : List Char) :
    (r.writeLine c strict indent owner attr text).attr = some ⟨attr, indent, owner⟩ :=
  (sameOpen_writeLine indent owner attr text).attr_eq

theorem Poised.attr_step_iff (h : Poised r) (strict : Bool) :
    (r.step c strict line).attr = some cursor ↔
      GivesTo c cursor r line ∨ (r.attr = some cursor ∧ LiesUnder c cursor.indent r line) := by
  cases hpasses : r.passes line with
  | true =>
      have hnone := assignment?_of_passes (c := c) hpasses
      rw [step_of_passes hpasses]
      constructor
      · intro hattr
        refine .inr ⟨hattr, ?_, hnone, opensBody_of_passes hpasses⟩
        -- A line that is skipped lies deeper than the refused one, which lies deeper than the attribute.
        intro hcontent
        rw [passes, hcontent, Bool.false_or, skips, Option.any_eq_true] at hpasses
        obtain ⟨refused, hskip, hdeeper⟩ := hpasses
        have hlt := h.skip_lt cursor hattr refused hskip
        rw [decide_eq_true_eq] at hdeeper
        omega
      · rintro (⟨⟨text, hgives⟩, -⟩ | ⟨hattr, -⟩)
        · rw [hnone] at hgives
          cases hgives
        · exact hattr
  | false =>
      have hcontent := saysNothing_of_not_passes hpasses
      cases hgives : r.assignment? c line with
      | some given =>
          obtain ⟨⟨who, attr⟩, text⟩ := given
          obtain ⟨-, hstep⟩ := step_of_assignment? strict hgives
          rw [hstep, attr_writeLine]
          constructor
          · intro heq
            obtain rfl := Option.some.inj heq
            exact .inl ⟨⟨text, hgives⟩, rfl⟩
          · rintro (⟨⟨text', hgives'⟩, hindent⟩ | ⟨-, hunder⟩)
            · rw [hgives] at hgives'
              cases hgives'
              rw [hindent]
            · rw [hunder.gives_nothing] at hgives
              cases hgives
      | none =>
          rw [attr_step_of_no_assignment strict hpasses hgives]
          cases hopens : r.opensBody c line with
          | true =>
              constructor
              · intro hnone
                cases hnone
              · rintro (⟨⟨text, hgives'⟩, -⟩ | ⟨-, hunder⟩)
                · rw [hgives] at hgives'
                  cases hgives'
                · rw [hunder.opens_nothing] at hopens
                  cases hopens
          | false =>
              rw [if_neg Bool.false_ne_true, h.attr_ready_iff]
              constructor
              · rintro ⟨hattr, hdeeper⟩
                exact .inr ⟨hattr, fun _ => hdeeper, hgives, hopens⟩
              · rintro (⟨⟨text, hgives'⟩, -⟩ | ⟨hattr, hunder⟩)
                · rw [hgives] at hgives'
                  cases hgives'
                · exact ⟨hattr, hunder.deeper hcontent⟩

theorem frames_step_of_plain (strict : Bool) (hpasses : r.passes line = false)
    (hplain : r.opensBody c line = false) : (r.step c strict line).frames = (r.ready line).frames := by
  have hopens : Opens (r.ready line) ((r.ready line).dispatch c strict (indentOf line) (strip line))
      ((r.ready line).eventOf c (indentOf line) (strip line)) := opens_dispatch ..
  rw [opensBody, event?, if_neg (ne_true_of_eq_false hpasses), Option.any_some] at hplain
  rw [step_of_not_passes hpasses, frames_of_opens hopens]
  cases hevent : (r.ready line).eventOf c (indentOf line) (strip line) with
  | plain indent => rfl
  | trigger frame =>
      rw [hevent] at hplain
      cases hplain
  | component cursor =>
      rw [hevent] at hplain
      cases hplain

theorem opensBody_of_assignment? {given : (Owner × String) × List Char}
    (h : r.assignment? c line = some given) : r.opensBody c line = false := by
  obtain ⟨hpasses, hkind⟩ := kindOf_of_assignment? h
  rw [opensBody_of_not_passes hpasses, hkind]

theorem Poised.step (h : Poised r) (line : List Char) : Poised (r.step c strict line) := by
  cases hpasses : r.passes line with
  | true =>
      rw [step_of_passes hpasses]
      exact ⟨h.frame_lt, h.skip_lt⟩
  | false =>
      obtain ⟨hframes, -, hskip⟩ := below_ready line r
      constructor
      · intro cursor hattr frame hframe
        rcases (h.attr_step_iff strict).1 hattr with ⟨⟨text, hgives⟩, hindent⟩ | ⟨hbefore, hunder⟩
        · rw [frames_step_of_plain strict hpasses (opensBody_of_assignment? hgives)] at hframe
          rw [← hindent]
          exact hframes frame hframe
        · have hdeeper := hunder.deeper (saysNothing_of_not_passes hpasses)
          have hcloses : ({ r with line := r.line + 1 } : Reader).closes (indentOf line) = false := by
            rw [closes, Option.any_eq_false]
            intro opened hopened
            have hlt := h.frame_lt cursor hbefore opened hopened
            rw [decide_eq_false_iff_not]
            omega
          rw [frames_step_of_plain strict hpasses hunder.opens_nothing, ready,
            frames_of_not_closes hcloses] at hframe
          exact h.frame_lt cursor hbefore frame hframe
      · intro cursor hattr refused hrefused
        rcases (h.attr_step_iff strict).1 hattr with ⟨⟨text, hgives⟩, -⟩ | ⟨-, hunder⟩
        · obtain ⟨-, hstep⟩ := step_of_assignment? strict hgives
          rw [hstep, skip_writeLine, hskip] at hrefused
          cases hrefused
        · have hdeeper := hunder.deeper (saysNothing_of_not_passes hpasses)
          rw [step_of_not_passes hpasses] at hrefused
          have hcases : ((r.ready line).dispatch c strict (indentOf line) (strip line)).skip =
              (r.ready line).skip ∨ _ := skip_dispatch (indentOf line) (strip line)
          rcases hcases with hkept | hset
          · rw [hkept, hskip] at hrefused
            cases hrefused
          · rw [hset] at hrefused
            obtain rfl := Option.some.inj hrefused
            exact hdeeper

theorem poised_readLines (c : Catalog) (strict : Bool) (lines : List (List Char)) :
    Poised (readLines c strict start lines) :=
  readLines_keeps (fun line h => h.step line) lines poised_start

/-- The attribute that is open is the last one, with all lines since under it. -/
theorem attr_iff_lastOpen (c : Catalog) (strict : Bool) (lines : List (List Char)) (cursor : AttributeCursor) :
    (readLines c strict start lines).attr = some cursor ↔ LastOpen c strict lines cursor := by
  induction lines using List.reverseRecOn with
  | nil =>
      rw [LastOpen, iff_false_right not_latest_nil]
      simp [readLines, start]
  | append_singleton lines line ih =>
      rw [readLines_snoc, (poised_readLines c strict lines).attr_step_iff, LastOpen, latest_snoc, ih, LastOpen]

theorem Founded.hasCell_of_effect (h : Founded c r) (heffect : Effect c strict r kind t) {who : Owner}
    {attr : String} {a : Attribute} (hcell : r.store.HasCell who attr (.ok a)) :
    ∃ b, t.HasCell who attr (.ok b) := by
  have hwrite {owner : Owner} (howner : r.store.Reaches owner) (attr' : String) (b : Attribute) :
      ∃ b', (r.store.write owner attr' b).HasCell who attr (.ok b') := by
    obtain ⟨owner', hknown, hbare⟩ := howner.knows
    rw [← r.store.write_of_bare hbare, h.readable.write_eq h.housed.coherent hknown]
    by_cases heq : who = owner' ∧ attr = attr'
    · obtain ⟨rfl, rfl⟩ := heq
      exact ⟨b, Store.hasCell_setCell h.housed.coherent hknown ..⟩
    · exact ⟨a, hcell.setCell_of_ne h.housed.coherent hknown heq⟩
  cases heffect with
  | unchanged => exact ⟨a, hcell⟩
  | declared name value range =>
      have hgrows := Store.grows_addVariable r.store name value r.home
      exact ⟨a, hcell.of_confined (Store.confined_addVariable ..) ((hgrows ..).knows hcell.knows)⟩
  | overridden frame name value hscope =>
      have hhome : r.home = some frame.key := by rw [home, hscope, Option.map_some]
      obtain ⟨x, hx⟩ := present_home h.rooted.present hhome
      exact ⟨a, hcell.of_confined (Store.confined_setOverride ..)
        ((Store.grows_setOverride hx name value).knows hcell.knows)⟩
  | entered frame hheader =>
      have hsame : Store.Confined none none r.store (r.store.declareTrigger frame.key frame.kind) :=
        Store.confined_declareTrigger ..
      exact ⟨a, hcell.of_confined hsame (hcell.knows.declareTrigger ..)⟩
  | added kind name _ =>
      have hgrows := Store.grows_addComponent (fun _ => present_home h.rooted.present) kind name
      exact ⟨a, hcell.of_confined (Store.confined_addComponent h.housed.coherent kind name)
        (hgrows.knows hcell.knows)⟩
  | assigned owner attr' text howner => exact hwrite (h.reaches.owner howner) attr' _
  | modulated cursor name hattr => exact hwrite (h.attr_reached cursor hattr) cursor.name _

def Held (r : Reader) : Prop :=
  ∀ cursor, r.attr = some cursor → ∃ who a, who.bare = cursor.owner.bare ∧
    r.store.HasCell who cursor.name (.ok a)

theorem Held.step (h : Held r) (hfounded : Founded c r) (hpoised : Poised r) (line : List Char) :
    Held (r.step c strict line) := by
  have hready : Founded c (r.ready line) := hfounded.ready line
  intro cursor hattr
  rcases (hpoised.attr_step_iff strict).1 hattr with ⟨⟨text, hgives⟩, -⟩ | ⟨hbefore, -⟩
  · obtain ⟨howner, hstep⟩ := step_of_assignment? strict hgives
    obtain ⟨who, hknown, hbare⟩ := (hready.reaches.owner howner).knows
    have hstore : ∃ a, (r.step c strict line).store = (r.ready line).store.write cursor.owner cursor.name a := by
      rw [hstep]
      exact ⟨_, rfl⟩
    obtain ⟨a, hstore⟩ := hstore
    refine ⟨who, a, hbare, ?_⟩
    rw [hstore, ← Store.write_of_bare hbare,
      hready.readable.write_eq hready.housed.coherent hknown]
    exact Store.hasCell_setCell hready.housed.coherent hknown ..
  · obtain ⟨who, a, hbare, hcell⟩ := h cursor hbefore
    obtain ⟨kind, heffect, -⟩ := effect_step c strict r line
    rw [← store_ready line] at hcell
    obtain ⟨b, hb⟩ := hready.hasCell_of_effect heffect hcell
    exact ⟨who, b, hbare, hb⟩

theorem held_readLines (c : Catalog) (strict : Bool) (lines : List (List Char)) :
    Held (readLines c strict start lines) := by
  induction lines using List.reverseRecOn with
  | nil =>
      intro cursor hcursor
      simp [readLines, start] at hcursor
  | append_singleton lines line ih =>
      rw [readLines_snoc]
      exact ih.step (founded_readLines c strict lines) (poised_readLines c strict lines) line

theorem line_read (c : Catalog) (strict : Bool) (lines : List (List Char)) :
    (readLines c strict start lines).line = lines.length := by
  rw [line_readLines]
  exact Nat.zero_add _

theorem step_of_words (strict : Bool) {name : List Char} (hpasses : r.passes line = false)
    (hwords : words (strip line) = [modulationWord.toList, name])
    (hkind : c.isTriggerKind modulationWord = false) :
    r.step c strict line = (r.ready line).attach (String.ofList name) := by
  rw [step_of_kindOf hpasses (kindOf_of_words hwords hkind r)]
  simp only [act, modulate, hwords]

end Reader

open Reader

/-- A modulation line attaches its modulator to the attribute that was last given a value, if this line and
all since then lie under that one; the value stays, and so does all else. Where there is no such attribute,
the line is an error. -/
theorem modulation_goes_to_last_open (c : Catalog) (strict : Bool) (lines : List (List Char))
    (line name : List Char) (hpasses : (readLines c strict start lines).passes line = false)
    (hwords : words (strip line) = [modulationWord.toList, name])
    (hkind : c.isTriggerKind modulationWord = false) :
    let before := readLines c strict start lines
    let after := before.step c strict line
    let outside : Issue := ⟨lines.length + 1, .modulationOutside⟩
    (∀ cursor, LastOpen c strict lines cursor → cursor.indent < indentOf line →
      (∃ old, Store.Rewrites cursor.owner cursor.name old
        (old.withModulation (some (.named (String.ofList name)))) before.store after.store) ∧
      after.issues = before.issues) ∧
    ((∀ cursor, LastOpen c strict lines cursor → ¬cursor.indent < indentOf line) →
      after.store = before.store ∧ outside.isError = true ∧ after.issues = before.issues ++ [outside]) := by
  intro before after outside
  have hstep : after = (before.ready line).attach (String.ofList name) := step_of_words strict hpasses hwords hkind
  have hissues : (before.ready line).issues = before.issues := issues_settle ..
  have hline : (before.ready line).line = lines.length + 1 := by
    rw [ready, settle_eq, ← line_read c strict lines]
  have hopen (cursor : AttributeCursor) : (before.ready line).attr = some cursor ↔
      LastOpen c strict lines cursor ∧ cursor.indent < indentOf line := by
    rw [(poised_readLines c strict lines).attr_ready_iff, attr_iff_lastOpen]
  constructor
  · intro cursor hlast hdeeper
    have hattr := (hopen cursor).2 ⟨hlast, hdeeper⟩
    have hfounded := founded_readLines c strict lines
    obtain ⟨who, old, hbare, hcell⟩ :=
      held_readLines c strict lines cursor ((attr_iff_lastOpen c strict lines cursor).2 hlast)
    have hread : before.store.read cursor.owner cursor.name = old :=
      Store.read_of_hasCell hfounded.housed.coherent hbare hcell
    have hrewrites := Store.rewrites_write hfounded.housed.coherent hfounded.readable hbare hcell
      (old.withModulation (some (.named (String.ofList name))))
    have hstore : after.store = before.store.write cursor.owner cursor.name
        (old.withModulation (some (.named (String.ofList name)))) := by
      simp only [hstep, attach, hattr, store_ready, hread]
    rw [← hstore] at hrewrites
    refine ⟨⟨old, hrewrites⟩, ?_⟩
    rw [hstep, attach, hattr]
    exact hissues
  · intro hnone
    have hattr : (before.ready line).attr = none := by
      rw [Option.eq_none_iff_forall_ne_some]
      intro cursor hcursor
      obtain ⟨hlast, hdeeper⟩ := (hopen cursor).1 hcursor
      exact hnone cursor hlast hdeeper
    rw [attach, hattr] at hstep
    refine ⟨?_, rfl, ?_⟩
    · rw [hstep]
      exact store_ready line before
    · rw [hstep, complain, complainAt, hissues, hline]

theorem modulation_goes_to_last_open_pitch :
    let c := pitchCatalog (.number (.int 5))
    let before := readLines c false start
      ["osc lead".toList, "  pitch 5".toList, "    variable depth = 3".toList]
    let after := before.step c false "    modulation wobble".toList
    ∃ old, Store.Rewrites (.component "lead" "osc") "pitch" old
      (old.withModulation (some (.named "wobble"))) before.store after.store := by
  intro c before after
  have hlast : LastOpen c false ["osc lead".toList, "  pitch 5".toList, "    variable depth = 3".toList]
      ⟨"pitch", 2, .component "lead" "osc"⟩ := by
    refine ⟨["osc lead".toList], "  pitch 5".toList, ["    variable depth = 3".toList], rfl,
      ⟨⟨['5'], by decide +kernel⟩, by decide +kernel⟩, ?_⟩
    intro before other rest h
    obtain ⟨rfl, rfl, rfl⟩ | ⟨_, -, habsurd⟩ := List.cons_eq_append_iff.1 h
    · exact ⟨fun _ => by decide +kernel, by decide +kernel, by decide +kernel⟩
    · simp at habsurd
  exact ((modulation_goes_to_last_open c false _ _ "wobble".toList (by decide +kernel) (by decide +kernel)
    rfl).1 _ hlast (by decide +kernel)).1

end Document
end Instrument
