namespace Instrument.Text

def escape : Char := '\x1b'

def isParameter (c : Char) : Bool := '0' ≤ c && c ≤ '?'

def isIntermediate (c : Char) : Bool := ' ' ≤ c && c ≤ '/'

def isFinal (c : Char) : Bool := '@' ≤ c && c ≤ '~'

def afterControl? : List Char → Option (List Char)
  | c :: '[' :: rest =>
    if c = escape then
      match (rest.dropWhile isParameter).dropWhile isIntermediate with
      | final :: after => if isFinal final then some after else none
      | [] => none
    else none
  | _ => none

theorem afterControl?_length_lt {cs after : List Char} (h : afterControl? cs = some after) :
    after.length < cs.length := by
  unfold afterControl? at h
  split at h
  · next c rest =>
    have hfront := (List.dropWhile_sublist isParameter (l := rest)).length_le
    have hmarks :=
      (List.dropWhile_sublist isIntermediate (l := rest.dropWhile isParameter)).length_le
    split at h
    · split at h
      · next final tail hdrop =>
        rw [hdrop, List.length_cons] at hmarks
        split at h
        · simp only [Option.some.injEq] at h
          subst h
          simp only [List.length_cons]
          omega
        · simp at h
      · simp at h
    · simp at h
  · simp at h

def withoutControls (cs : List Char) : List Char :=
  match cs with
  | [] => []
  | c :: rest =>
    match _h : afterControl? (c :: rest) with
    | some after => withoutControls after
    | none => c :: withoutControls rest
termination_by cs.length
decreasing_by
  · exact afterControl?_length_lt _h
  · simp

end Instrument.Text
