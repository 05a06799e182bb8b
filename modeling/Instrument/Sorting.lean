namespace Instrument.Sorting

variable {α : Type} (before? : α → α → Option Bool)

def place (a : α) (sorted : List α) : Option (List α) :=
  match _h : sorted.drop (sorted.length / 2) with
  | [] => some [a]
  | middle :: above =>
    let below := sorted.take (sorted.length / 2)
    match before? a middle with
    | none => none
    | some true => (place a below).map (· ++ middle :: above)
    | some false => (place a above).map (below ++ middle :: ·)
termination_by sorted.length
decreasing_by
  · have h := congrArg List.length _h
    simp only [List.length_drop, List.length_cons] at h
    rw [List.length_take]
    omega
  · have h := congrArg List.length _h
    simp only [List.length_drop, List.length_cons] at h
    omega

/-- Goes on with a run as long as each item falls below the last, or as long as none does. The run
is returned last item first, and with it what comes after. -/
def extendRun (falling : Bool) (last : α) (earlier : List α) :
    List α → Option (List α × List α)
  | [] => some (last :: earlier, [])
  | b :: rest =>
    match before? b last with
    | none => none
    | some falls =>
      if falls = falling then extendRun falling b (last :: earlier) rest
      else some (last :: earlier, b :: rest)

/-- The items in order, by a comparison that may have no answer. A rising or a falling run at the
front is taken as a whole, and every further item is put in its place by halving, after all that are
equal to it: where items cannot be compared, the order of the comparisons counts. -/
def sort? : List α → Option (List α)
  | [] => some []
  | [a] => some [a]
  | a :: b :: rest => do
    let falling ← before? b a
    let (run, others) ← extendRun before? falling b [a] rest
    others.foldlM (fun sorted x => place before? x sorted) (if falling then run else run.reverse)

end Instrument.Sorting
