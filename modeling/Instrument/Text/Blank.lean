namespace Instrument.Text

/-- The characters that separate words: white space of every script, and the separators that end
a file, a group, a record or a unit. -/
def isBlank (c : Char) : Bool :=
  let n := c.toNat
  (9 ≤ n && n ≤ 13) || (28 ≤ n && n ≤ 32) || n == 0x85 || n == 0xa0 || n == 0x1680
    || (0x2000 ≤ n && n ≤ 0x200a) || n == 0x2028 || n == 0x2029 || n == 0x202f || n == 0x205f
    || n == 0x3000

def stripStart (cs : List Char) : List Char := cs.dropWhile isBlank

def stripEnd : List Char → List Char
  | [] => []
  | c :: cs => match stripEnd cs with
    | [] => if isBlank c then [] else [c]
    | kept => c :: kept

def strip (cs : List Char) : List Char := stripEnd (stripStart cs)

def words : List Char → List (List Char)
  | [] => []
  | c :: cs =>
    if isBlank c then words cs
    else match cs with
      | [] => [[c]]
      | next :: rest =>
        if isBlank next then [c] :: words (next :: rest)
        else match words (next :: rest) with
          | word :: others => (c :: word) :: others
          | [] => [[c]]

def firstWord (cs : List Char) : List Char := (stripStart cs).takeWhile (!isBlank ·)

def cutAtSpace : List Char → List Char × List Char
  | [] => ([], [])
  | c :: cs =>
    if c = ' ' then ([], cs)
    else let (before, after) := cutAtSpace cs
      (c :: before, after)

def cutAt (separator : Char) : List Char → List (List Char)
  | [] => [[]]
  | c :: cs =>
    if c = separator then [] :: cutAt separator cs
    else match cutAt separator cs with
      | part :: others => (c :: part) :: others
      | [] => [[c]]

theorem stripEnd_eq_nil {cs : List Char} (h : ∀ c ∈ cs, isBlank c = true) : stripEnd cs = [] := by
  induction cs with
  | nil => rfl
  | cons c cs ih => simp_all [stripEnd]

theorem stripEnd_cons {c : Char} (h : isBlank c = false) (cs : List Char) :
    stripEnd (c :: cs) = c :: stripEnd cs := by
  rw [stripEnd]
  cases stripEnd cs <;> simp [h]

theorem strip_eq_nil {cs : List Char} (h : ∀ c ∈ cs, isBlank c = true) : strip cs = [] :=
  stripEnd_eq_nil fun c hc => h c ((List.dropWhile_sublist isBlank).mem hc)

theorem cutAtSpace_eq (cs : List Char) :
    cs = (cutAtSpace cs).1 ∨ ∃ rest, cs = (cutAtSpace cs).1 ++ ' ' :: rest := by
  induction cs with
  | nil => exact .inl rfl
  | cons c cs ih =>
    rw [cutAtSpace]
    by_cases h : c = ' '
    · exact .inr ⟨cs, by simp [h]⟩
    · rw [if_neg h]
      rcases ih with heq | ⟨rest, heq⟩
      · exact .inl (congrArg (c :: ·) heq)
      · exact .inr ⟨rest, congrArg (c :: ·) heq⟩

theorem strip_cases (cs : List Char) :
    strip cs = [] ∨ ∃ c rest, strip cs = c :: rest ∧ isBlank c = false := by
  rw [strip]
  cases hstart : stripStart cs with
  | nil => exact .inl rfl
  | cons c rest =>
      have hhead := List.head?_dropWhile_not isBlank cs
      rw [← stripStart, hstart] at hhead
      have hblank : isBlank c = false := by simpa using hhead
      exact .inr ⟨c, stripEnd rest, stripEnd_cons hblank rest, hblank⟩

theorem fst_cutAtSpace (cs : List Char) : (cutAtSpace cs).1 = cs.takeWhile (· != ' ') := by
  induction cs with
  | nil => rfl
  | cons c cs ih =>
    rw [cutAtSpace]
    by_cases h : c = ' '
    · simp [h]
    · simp [h, ih]

theorem firstWord_eq_cutAtSpace {cs : List Char} (hne : (cutAtSpace cs).1 ≠ [])
    (hblank : ∀ c ∈ (cutAtSpace cs).1, isBlank c = false) : firstWord cs = (cutAtSpace cs).1 := by
  cases hword : (cutAtSpace cs).1 with
  | nil => exact absurd hword hne
  | cons c word =>
    rw [hword] at hblank
    have htail : ∀ x ∈ c :: word, (!isBlank x) = true := fun x hx => by simp [hblank x hx]
    have hfirst : ∃ rest, cs = c :: word ++ rest ∧ rest.takeWhile (!isBlank ·) = [] := by
      rcases cutAtSpace_eq cs with heq | ⟨rest, heq⟩
      · exact ⟨[], by rw [List.append_nil, ← hword]; exact heq, rfl⟩
      · exact ⟨' ' :: rest, by rw [← hword]; exact heq, rfl⟩
    obtain ⟨rest, heq, hrest⟩ := hfirst
    have hstart : stripStart cs = cs := by
      rw [heq, stripStart, List.cons_append, List.dropWhile_cons_of_neg]
      simp [hblank c (List.mem_cons_self ..)]
    rw [firstWord, hstart, heq, List.takeWhile_append_of_pos htail, hrest, List.append_nil]

end Instrument.Text
