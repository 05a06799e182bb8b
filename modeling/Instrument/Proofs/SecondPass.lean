import Instrument.Document.Reading
import Instrument.Proofs.Confined

namespace Instrument

namespace Document.Reader

variable {c : Catalog} {strict : Bool} {r : Reader}

def boundModulation (c : Catalog) (target : Owner × String) (s : Store) (a : Attribute) : Attribute :=
  match a.modulation with
  | some ⟨.text name, .null⟩ =>
    match bindModulator c.modulatorKinds target.2 (schemaOf c target.1 target.2) name
        (s.nameInfo? name) with
    | .ok kind => a.withModulation (some (.bound name kind))
    | .error _ => a
  | _ => a

/-- What binding makes of an attribute. -/
def boundAttribute (c : Catalog) (strict : Bool) (target : Owner × String) (s : Store)
    (a : Attribute) : Attribute :=
  boundModulation c target s (bindValue c strict target a s).attr

theorem store_bindModulation (c : Catalog) (target : Owner × String) (a : Attribute) (r : Reader) :
    (r.bindModulation c target a).store =
      r.store.write target.1 target.2 (boundModulation c target r.store a) := by
  rw [bindModulation, boundModulation]
  split
  · split
    · simp_all
    · simp_all [complainAt]
  · simp_all

theorem store_bindAttribute (c : Catalog) (strict : Bool) (r : Reader) (target : Owner × String) :
    (r.bindAttribute c strict target).store = r.store.write target.1 target.2
      (boundAttribute c strict target r.store (r.store.read target.1 target.2)) := by
  simp only [bindAttribute]
  split
  · exact store_bindModulation ..
  · exact store_bindModulation ..

theorem conclude_induction {p : Store → Prop} (c : Catalog) (strict : Bool) (h : p r.store)
    (hwrite : ∀ {s target} a, target ∈ targets r.store → p s → p (s.write target.1 target.2 a)) :
    p (r.conclude c strict).store := by
  suffices hrun : ∀ todo : List (Owner × String), todo ⊆ targets r.store → ∀ now : Reader, p now.store →
      p (todo.foldl (bindAttribute c strict) now).store from hrun _ (List.Subset.refl _) r h
  intro todo
  induction todo with
  | nil =>
      intro _ now hnow
      exact hnow
  | cons target rest ih =>
      intro htodo now hnow
      obtain ⟨htarget, hrest⟩ := List.cons_subset.1 htodo
      refine ih hrest _ ?_
      rw [store_bindAttribute]
      exact hwrite _ htarget hnow

end Document.Reader

end Instrument
