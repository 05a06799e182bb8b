import Instrument.Proofs.Deferral
import Instrument.Proofs.Legible
import Instrument.Proofs.LineCells

namespace Instrument.Document.Reader

variable {c : Catalog} {strict : Bool} {r now : Reader} {target : Owner × String}
  {todo : List (Owner × String)} {owner : Owner} {attr : String} {a : Attribute}

def modulationComplaint? (c : Catalog) (target : Owner × String) (s : Store) (a : Attribute) :
    Option Complaint :=
  match a.modulation with
  | some ⟨.text name, .null⟩ =>
    match bindModulator c.modulatorKinds target.2 (schemaOf c target.1 target.2) name
        (s.nameInfo? name) with
    | .ok _ => none
    | .error complaint => some complaint
  | _ => none

def toldOfModulator (c : Catalog) (r : Reader) (target : Owner × String) (a : Attribute) : List Issue :=
  ((modulationComplaint? c target r.store a).map fun complaint =>
    ⟨r.lineFor r.modulationLines target, complaint⟩).toList

/-- What binding an attribute finds: about its value, then about its modulator. -/
def told (c : Catalog) (strict : Bool) (r : Reader) (target : Owner × String) : List Issue :=
  let bound := bindValue c strict target (r.store.read target.1 target.2) r.store
  (bound.complaint.map fun complaint => ⟨r.lineFor r.attributeLines target, complaint⟩).toList ++
    r.toldOfModulator c target bound.attr

theorem issues_bindModulation (c : Catalog) (target : Owner × String) (a : Attribute) (r : Reader) :
    (r.bindModulation c target a).issues = r.issues ++ r.toldOfModulator c target a := by
  rw [bindModulation, toldOfModulator, modulationComplaint?]
  split
  · split
    · simp_all
    · simp_all [complainAt]
  · simp_all

theorem issues_bindAttribute (c : Catalog) (strict : Bool) (r : Reader) (target : Owner × String) :
    (r.bindAttribute c strict target).issues = r.issues ++ r.told c strict target := by
  simp only [bindAttribute, told]
  cases (bindValue c strict target (r.store.read target.1 target.2) r.store).complaint with
  | none =>
      rw [issues_bindModulation]
      rfl
  | some complaint =>
      rw [issues_bindModulation]
      simp [complainAt, lineFor, toldOfModulator]

theorem modulation_bindWord (strict : Bool) (owner : Owner) (attr : String) (schema : AttributeSchema)
    (a : Attribute) (word : String) (info : Option NameInfo) :
    (bindWord strict owner attr schema a word info).attr.modulation = a.modulation ∨
      ∃ kind, (bindWord strict owner attr schema a word info).attr.modulation = some (.bound word kind) := by
  have hmoved {kind : String} {moved : Bound}
      (h : moveModulator? a attr schema (.bound word kind) = some moved) :
      moved.attr.modulation = some (.bound word kind) := by
    rw [moveModulator?] at h
    split at h
    · cases h
    · cases h
      rfl
  simp only [bindWord, bindComponent]
  repeat' split
  all_goals first
    | exact .inl rfl
    | exact .inr ⟨_, hmoved ‹_›⟩

theorem modulation_of_complaint {s : Store}
    (h : (modulationComplaint? c target s (bindValue c strict target a s).attr).isSome) :
    a.modulation.isSome := by
  have hkept : (bindValue c strict target a s).attr.modulation = a.modulation ∨
      ∃ word kind, (bindValue c strict target a s).attr.modulation = some (.bound word kind) := by
    rw [bindValue]
    split
    · next word _ =>
        cases schemaOf c target.1 target.2 with
        | none => exact .inl rfl
        | some schema =>
            rcases modulation_bindWord strict target.1 target.2 schema a word (s.nameInfo? word) with
              hsame | ⟨kind, hmoved⟩
            · exact .inl hsame
            · exact .inr ⟨word, kind, hmoved⟩
    · exact .inl rfl
  rcases hkept with hsame | ⟨word, kind, hmoved⟩
  · rw [← hsame]
    rw [modulationComplaint?] at h
    split at h
    · next name hname =>
        rw [hname]
        rfl
    · cases h
  · rw [modulationComplaint?, hmoved] at h
    cases h

theorem mem_told {strict : Bool} (hr : r.store.Legible c) (hnoted : Noted r)
    (htarget : target ∈ targets r.store) {issue : Issue} (h : issue ∈ r.told c strict target) :
    (target, issue.line) ∈ r.attributeLines ∨ (target, issue.line) ∈ r.modulationLines := by
  obtain ⟨cell, hcell⟩ := (mem_targets_of_legible hr).1 htarget
  obtain ⟨a, rfl⟩ := hr.readable _ _ _ hcell
  have hread := hcell.read_eq hr.coherent
  have hentry {lines : AttributeLines} (hlookup : (lines.lookup target).isSome) :
      (target, r.lineFor lines target) ∈ lines := by
    obtain ⟨line, hline⟩ := Option.isSome_iff_exists.1 hlookup
    obtain ⟨before, after, hsplit, -⟩ := List.lookup_eq_some_iff.1 hline
    rw [lineFor, hline, Option.getD_some, hsplit]
    simp
  simp only [told, toldOfModulator, hread, List.mem_append, Option.mem_toList,
    Option.map_eq_some_iff] at h
  rcases h with ⟨complaint, -, rfl⟩ | ⟨complaint, hcomplaint, rfl⟩
  · exact .inl (hentry (hnoted.cell hcell))
  · have hsome := modulation_of_complaint (Option.isSome_iff_exists.2 ⟨complaint, hcomplaint⟩)
    exact .inr (hentry (hnoted.modulation hcell hsome))

structure SameLines (r r' : Reader) : Prop where
  line_eq : r'.line = r.line
  attributeLines_eq : r'.attributeLines = r.attributeLines
  modulationLines_eq : r'.modulationLines = r.modulationLines

theorem SameLines.refl (r : Reader) : SameLines r r := ⟨rfl, rfl, rfl⟩

theorem SameLines.trans {r r' r'' : Reader} (h : SameLines r r') (h' : SameLines r' r'') :
    SameLines r r'' :=
  ⟨h'.line_eq.trans h.line_eq, h'.attributeLines_eq.trans h.attributeLines_eq,
    h'.modulationLines_eq.trans h.modulationLines_eq⟩

theorem sameLines_bindAttribute (c : Catalog) (strict : Bool) (r : Reader) (target : Owner × String) :
    SameLines r (r.bindAttribute c strict target) := by
  have hmodulation (now : Reader) (a : Attribute) : SameLines now (now.bindModulation c target a) := by
    rw [bindModulation]
    split
    · split <;> exact ⟨rfl, rfl, rfl⟩
    · exact ⟨rfl, rfl, rfl⟩
  simp only [bindAttribute]
  split
  · next complaint _ =>
      have htold : SameLines r (r.complainAt (r.lineFor r.attributeLines target) complaint) := ⟨rfl, rfl, rfl⟩
      exact htold.trans (hmodulation ..)
  · exact hmodulation ..

/-- While the attributes are bound one after the other: those still to do are as the lines left them,
the others are bound. -/
structure Binding (c : Catalog) (strict : Bool) (r : Reader) (todo : List (Owner × String))
    (now : Reader) : Prop where
  legible : now.store.Legible c
  nameInfo?_eq : ∀ name, now.store.nameInfo? name = r.store.nameInfo? name
  lines : SameLines r now
  nodup : todo.Nodup
  known : ∀ target ∈ todo, now.store.Knows target.1
  waiting : ∀ {owner attr cell}, (owner, attr) ∈ todo →
    (now.store.HasCell owner attr cell ↔ r.store.HasCell owner attr cell)
  done : ∀ {owner attr cell}, (owner, attr) ∉ todo → (now.store.HasCell owner attr cell ↔
    ∃ a, r.store.HasCell owner attr (.ok a) ∧
      cell = .ok (boundAttribute c strict (owner, attr) r.store a))

theorem binding_targets (h : r.store.Legible c) : Binding c strict r (targets r.store) r where
  legible := h
  nameInfo?_eq _ := rfl
  lines := .refl r
  nodup := targets_nodup h
  known target htarget := by
    obtain ⟨cell, hcell⟩ := (mem_targets_of_legible h).1 htarget
    exact hcell.knows
  waiting _ := Iff.rfl
  done {owner attr cell} hmem := by
    have hnone : ∀ cell, ¬r.store.HasCell owner attr cell :=
      fun cell hcell => hmem ((mem_targets_of_legible h).2 ⟨cell, hcell⟩)
    simp [hnone]

theorem Binding.read_eq (h : Binding c strict r (target :: todo) now) (hr : r.store.Legible c)
    (hcell : r.store.HasCell target.1 target.2 (.ok a)) :
    now.store.read target.1 target.2 = a ∧ r.store.read target.1 target.2 = a :=
  ⟨((h.waiting List.mem_cons_self).2 hcell).read_eq h.legible.coherent, hcell.read_eq hr.coherent⟩

theorem Binding.store_eq (h : Binding c strict r (target :: todo) now) :
    (now.bindAttribute c strict target).store = now.store.setCell target.1 target.2
      (.ok (boundAttribute c strict target now.store (now.store.read target.1 target.2))) := by
  rw [store_bindAttribute]
  exact h.legible.readable.write_eq h.legible.coherent (h.known target List.mem_cons_self) _

theorem Binding.step (hr : r.store.Legible c) (htarget : target ∈ targets r.store)
    (h : Binding c strict r (target :: todo) now) :
    Binding c strict r todo (now.bindAttribute c strict target) := by
  obtain ⟨hfresh, hnodup⟩ := List.nodup_cons.1 h.nodup
  have hknown := h.known target List.mem_cons_self
  have hcoherent := h.legible.coherent
  obtain ⟨cell, hcell⟩ := (mem_targets_of_legible hr).1 htarget
  obtain ⟨a, rfl⟩ := hr.readable _ _ _ hcell
  obtain ⟨hread, -⟩ := h.read_eq hr hcell
  have hstore := h.store_eq
  rw [hread, boundAttribute_congr h.nameInfo?_eq] at hstore
  have hcells {owner attr cell} : (now.bindAttribute c strict target).store.HasCell owner attr cell ↔
      if (owner, attr) = target then cell = .ok (boundAttribute c strict target r.store a)
      else now.store.HasCell owner attr cell := by
    have hpair : (owner, attr) = target ↔ owner = target.1 ∧ attr = target.2 := Prod.ext_iff
    rw [hstore, Store.hasCell_setCell_iff hcoherent hknown, ← hpair, ← and_assoc, ← hpair]
    split
    · next heq => simp [heq]
    · next hne => simp [hne]
  constructor
  · rw [hstore]
    exact h.legible.setCell hknown ..
  · intro name
    rw [hstore, (now.store.keeps_setCell ..).nameInfo?_eq, h.nameInfo?_eq]
  · exact h.lines.trans (sameLines_bindAttribute ..)
  · exact hnodup
  · intro other hmem
    rw [hstore]
    exact (h.known other (List.mem_cons_of_mem _ hmem)).setCell hknown
  · intro owner attr cell hmem
    rw [hcells, if_neg (by rintro rfl; exact hfresh hmem), h.waiting (List.mem_cons_of_mem _ hmem)]
  · intro owner attr cell hmem
    rw [hcells]
    split
    · next hsame =>
        subst hsame
        constructor
        · intro hset
          exact ⟨a, hcell, hset⟩
        · rintro ⟨b, hb, rfl⟩
          rw [Except.ok.inj (hb.unique hr.coherent hcell)]
    · next hother => exact h.done (by simp [hother, hmem])

theorem Binding.told_eq (hr : r.store.Legible c) (htarget : target ∈ targets r.store)
    (h : Binding c strict r (target :: todo) now) : now.told c strict target = r.told c strict target := by
  obtain ⟨cell, hcell⟩ := (mem_targets_of_legible hr).1 htarget
  obtain ⟨a, rfl⟩ := hr.readable _ _ _ hcell
  obtain ⟨hread, hread'⟩ := h.read_eq hr hcell
  simp only [told, toldOfModulator, hread, hread', bindValue, modulationComplaint?, lineFor, h.nameInfo?_eq,
    h.lines.line_eq, h.lines.attributeLines_eq, h.lines.modulationLines_eq]

theorem Binding.run (hr : r.store.Legible c) (htodo : todo ⊆ targets r.store) :
    ∀ {now}, Binding c strict r todo now →
      Binding c strict r [] (todo.foldl (bindAttribute c strict) now) ∧
      (todo.foldl (bindAttribute c strict) now).issues = now.issues ++ todo.flatMap (r.told c strict) := by
  induction todo with
  | nil =>
      intro now h
      exact ⟨h, by simp⟩
  | cons target rest ih =>
      intro now h
      obtain ⟨htarget, hrest⟩ := List.cons_subset.1 htodo
      obtain ⟨hbound, hissues⟩ := ih hrest (h.step hr htarget)
      refine ⟨hbound, ?_⟩
      rw [List.foldl_cons, hissues, issues_bindAttribute, h.told_eq hr htarget, List.append_assoc,
        List.flatMap_cons]

theorem Binding.after (hr : r.store.Legible c) {done : List (Owner × String)}
    (hdone : done ⊆ targets r.store) :
    ∀ {now}, Binding c strict r (done ++ todo) now →
      Binding c strict r todo (done.foldl (bindAttribute c strict) now) := by
  induction done with
  | nil =>
      intro now h
      exact h
  | cons target rest ih =>
      intro now h
      obtain ⟨htarget, hrest⟩ := List.cons_subset.1 hdone
      exact ih hrest (h.step hr htarget)

/-- The issues of a document are those of its lines, and after them what binding finds for each
attribute. -/
theorem issues_conclude (hr : r.store.Legible c) (strict : Bool) :
    (r.conclude c strict).issues = r.issues ++ (targets r.store).flatMap (r.told c strict) :=
  ((binding_targets hr).run hr (List.Subset.refl _)).2

theorem hasCell_conclude_iff (hr : r.store.Legible c) {cell : Cell} :
    (r.conclude c strict).store.HasCell owner attr cell ↔
      ∃ a, r.store.HasCell owner attr (.ok a) ∧
        cell = .ok (boundAttribute c strict (owner, attr) r.store a) :=
  ((binding_targets hr).run hr (List.Subset.refl _)).1.done List.not_mem_nil

theorem legible_conclude (hr : r.store.Legible c) : (r.conclude c strict).store.Legible c :=
  ((binding_targets hr).run hr (List.Subset.refl _)).1.legible

theorem nameInfo?_conclude (c : Catalog) (strict : Bool) (r : Reader) (name : String) :
    (r.conclude c strict).store.nameInfo? name = r.store.nameInfo? name := by
  refine conclude_induction (p := fun s => s.nameInfo? name = r.store.nameInfo? name) c strict rfl ?_
  intro s target a _ h
  exact ((s.keeps_write ..).nameInfo?_eq name).trans h

end Instrument.Document.Reader
