/-!
# Blank characters

The characters with the Unicode property White_Space, and texts without blanks at their ends.
-/

namespace RowFlow.Text

/-- The 25 characters of white space. The comparisons are not for unfolding in proofs. -/
@[irreducible]
def isBlank (c : Char) : Bool :=
  let n := c.toNat
  (9 ≤ n && n ≤ 13) || n = 0x20 || n = 0x85 || n = 0xA0 || n = 0x1680
    || (0x2000 ≤ n && n ≤ 0x200A) || n = 0x2028 || n = 0x2029 || n = 0x202F || n = 0x205F
    || n = 0x3000

def trimStart (cs : List Char) : List Char := cs.dropWhile isBlank

def trimEnd (cs : List Char) : List Char := (cs.reverse.dropWhile isBlank).reverse

def trim (cs : List Char) : List Char := trimEnd (trimStart cs)

/-- There is nothing but blanks. -/
def isAllBlank (s : String) : Bool := s.toList.all isBlank

/-- There are blanks at neither end. -/
structure Trimmed (cs : List Char) : Prop where
  head : ∀ c ∈ cs.head?, isBlank c = false
  last : ∀ c ∈ cs.getLast?, isBlank c = false

theorem Trimmed.of_all (hhead : cs.head?.all (!isBlank ·) = true)
    (hlast : cs.getLast?.all (!isBlank ·) = true) : Trimmed cs := by
  simp only [Option.all_eq_true, Bool.not_eq_true'] at hhead hlast
  exact ⟨fun c hc => hhead c hc, fun c hc => hlast c hc⟩

theorem trimStart_append (h : ∀ c ∈ blanks, isBlank c = true) (cs : List Char) :
    trimStart (blanks ++ cs) = trimStart cs :=
  List.dropWhile_append_of_pos h

theorem trimStart_of_head {cs : List Char} (h : ∀ c ∈ cs.head?, isBlank c = false) :
    trimStart cs = cs := by
  cases cs with
  | nil => rfl
  | cons c cs => exact List.dropWhile_cons_of_neg (by simp [h c rfl])

theorem trimEnd_append (h : ∀ c ∈ blanks, isBlank c = true) (cs : List Char) :
    trimEnd (cs ++ blanks) = trimEnd cs := by
  rw [trimEnd, List.reverse_append,
    List.dropWhile_append_of_pos fun c hc => h c (List.mem_reverse.mp hc), trimEnd]

theorem trimEnd_of_last {cs : List Char} (h : ∀ c ∈ cs.getLast?, isBlank c = false) :
    trimEnd cs = cs := by
  have hreverse : trimStart cs.reverse = cs.reverse :=
    trimStart_of_head fun c hc => h c (by rwa [List.head?_reverse] at hc)
  exact (congrArg List.reverse hreverse).trans (List.reverse_reverse cs)

/-- What is trimmed is found again among blanks. -/
theorem Trimmed.trim_append {cs : List Char} (h : Trimmed cs)
    (hlead : ∀ c ∈ lead, isBlank c = true) (htrail : ∀ c ∈ trail, isBlank c = true) :
    trim (lead ++ (cs ++ trail)) = cs := by
  rw [trim, trimStart_append hlead]
  cases cs with
  | nil =>
    have hnil := trimStart_append htrail []
    rw [List.append_nil] at hnil
    rw [List.nil_append, hnil]
    rfl
  | cons c cs =>
    have hhead : trimStart (c :: cs ++ trail) = c :: cs ++ trail := trimStart_of_head h.head
    rw [hhead, trimEnd_append htrail, trimEnd_of_last h.last]

theorem exists_trimStart (cs : List Char) :
    ∃ lead, cs = lead ++ trimStart cs ∧ ∀ c ∈ lead, isBlank c = true :=
  ⟨cs.takeWhile isBlank, List.takeWhile_append_dropWhile.symm, fun _ h =>
    List.all_eq_true.mp List.all_takeWhile _ h⟩

theorem head?_trimStart (cs : List Char) (h : c ∈ (trimStart cs).head?) : isBlank c = false := by
  have hfirst := List.head?_dropWhile_not isBlank cs
  rw [trimStart] at h
  rw [h] at hfirst
  simpa using hfirst

/-- A text is trimmed by taking blanks away at both ends. -/
theorem exists_trim (cs : List Char) :
    ∃ lead trail, cs = lead ++ (trim cs ++ trail) ∧ (∀ c ∈ lead, isBlank c = true) ∧
      (∀ c ∈ trail, isBlank c = true) ∧ Trimmed (trim cs) := by
  obtain ⟨lead, hlead, hblank⟩ := exists_trimStart cs
  obtain ⟨trail, htrail, hblank'⟩ := exists_trimStart (trimStart cs).reverse
  have hend : trimStart cs = trim cs ++ trail.reverse := by
    have hreverse := congrArg List.reverse htrail
    rwa [List.reverse_reverse, List.reverse_append] at hreverse
  refine ⟨lead, trail.reverse, ?_, hblank, fun c hc => hblank' c (List.mem_reverse.mp hc),
    ⟨fun c hc => head?_trimStart cs ?_, fun c hc => ?_⟩⟩
  · rw [← hend]
    exact hlead
  · rw [hend]
    cases htrim : trim cs with
    | nil =>
      rw [htrim] at hc
      cases hc
    | cons d ds =>
      rw [htrim] at hc
      exact hc
  · refine head?_trimStart (trimStart cs).reverse ?_
    rw [← List.getLast?_reverse]
    exact hc

end RowFlow.Text
