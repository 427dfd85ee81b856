import Mathlib.Data.List.Basic

/-!
# Reading lines into a short buffer

A reader that takes at most so many items at a time, and stops behind each line end, sees a
long line in pieces. What it looks for piece by piece it finds exactly where a line has it in
one piece. It may look only at pieces that are fit to be read up to there.
-/

universe u

namespace LinePieces

variable {α : Type u} [DecidableEq α] {lineEnd : α} {cap : Nat} {w line xs rest : List α}
  {Readable : List α → Prop}

/-- One read of at most so many items, and what is left. -/
def read (lineEnd : α) : Nat → List α → List α × List α
  | 0, xs => ([], xs)
  | _ + 1, [] => ([], [])
  | n + 1, x :: xs =>
    if x = lineEnd then ([x], xs)
    else (x :: (read lineEnd n xs).1, (read lineEnd n xs).2)

/-- The successive reads until nothing is left. -/
def pieces (lineEnd : α) (cap : Nat) : Nat → List α → List (List α)
  | 0, _ => []
  | _ + 1, [] => []
  | fuel + 1, x :: xs =>
    (read lineEnd cap (x :: xs)).1 :: pieces lineEnd cap fuel (read lineEnd cap (x :: xs)).2

/-- Somewhere in the piece stands `w`, and the piece is readable up to its end. -/
def Stands (Readable : List α → Prop) (w piece : List α) : Prop :=
  ∃ o, w <+: piece.drop o ∧ Readable (piece.take (o + w.length))

/-- Somewhere in the line `w` stands in one piece, which is readable up to its end. -/
def Fits (Readable : List α → Prop) (cap : Nat) (w line : List α) : Prop :=
  ∃ o, w <+: line.drop o ∧ (o + w.length - 1) / cap = o / cap ∧
    Readable ((line.take (o + w.length)).drop (o / cap * cap))

/-! ### One read -/

/-- A line that is shorter than the buffer is read with its end. -/
theorem read_line (h : lineEnd ∉ line) {n : Nat} (hn : line.length < n) :
    read lineEnd n (line ++ lineEnd :: rest) = (line ++ [lineEnd], rest) := by
  induction line generalizing n with
  | nil =>
    cases n with
    | zero => cases hn
    | succ n => exact if_pos rfl
  | cons x line ih =>
    rw [List.mem_cons, not_or] at h
    cases n with
    | zero => cases hn
    | succ n =>
      simp only [List.cons_append, read, if_neg (Ne.symm h.1),
        ih h.2 (Nat.lt_of_succ_lt_succ hn)]

/-- A line that is not is read as far as the buffer goes. -/
theorem read_take (h : lineEnd ∉ line) {n : Nat} (hn : n ≤ line.length) :
    read lineEnd n (line ++ rest) = (line.take n, line.drop n ++ rest) := by
  induction line generalizing n with
  | nil =>
    cases Nat.le_zero.mp hn
    rfl
  | cons x line ih =>
    rw [List.mem_cons, not_or] at h
    cases n with
    | zero => rfl
    | succ n =>
      simp only [List.cons_append, read, if_neg (Ne.symm h.1),
        ih h.2 (Nat.le_of_succ_le_succ hn), List.take_succ_cons, List.drop_succ_cons]

/-- The last line may lack its end. -/
theorem read_all (h : lineEnd ∉ line) {n : Nat} (hn : line.length ≤ n) :
    read lineEnd n line = (line, []) := by
  induction line generalizing n with
  | nil => cases n <;> rfl
  | cons x line ih =>
    rw [List.mem_cons, not_or] at h
    cases n with
    | zero => cases hn
    | succ n =>
      simp only [read, if_neg (Ne.symm h.1), ih h.2 (Nat.le_of_succ_le_succ hn)]

/-! ### Where a piece begins and ends -/

omit [DecidableEq α] in
private theorem add_length_le {o : Nat} (h : w <+: line.drop o) (hw : w ≠ []) :
    o + w.length ≤ line.length := by
  have hle := h.length_le
  have hpos := List.length_pos_iff.mpr hw
  rw [List.length_drop] at hle
  omega

omit [DecidableEq α] in
/-- A line no longer than the buffer has everything in one piece. -/
theorem fits_iff_of_length_le (hw : w ≠ []) (hl : line.length ≤ cap) :
    Fits Readable cap w line ↔ Stands Readable w line := by
  refine exists_congr fun o ↦ and_congr_right fun ho ↦ ?_
  have hle := add_length_le ho hw
  have hpos := List.length_pos_iff.mpr hw
  rw [Nat.div_eq_of_lt (by omega), Nat.div_eq_of_lt (by omega), Nat.zero_mul, List.drop_zero]
  exact and_iff_right rfl

omit [DecidableEq α] in
/-- What comes behind the first piece is cut as the rest by itself is. -/
private theorem fits_rest_iff (hcap : 0 < cap) (hw : w ≠ []) (o : Nat) :
    (w <+: line.drop (o + cap) ∧ (o + cap + w.length - 1) / cap = (o + cap) / cap ∧
        Readable ((line.take (o + cap + w.length)).drop ((o + cap) / cap * cap))) ↔
      w <+: (line.drop cap).drop o ∧ (o + w.length - 1) / cap = o / cap ∧
        Readable (((line.drop cap).take (o + w.length)).drop (o / cap * cap)) := by
  have hpos := List.length_pos_iff.mpr hw
  have hstop : o + cap + w.length - 1 = o + w.length - 1 + cap := by omega
  have hend : o + cap + w.length = cap + (o + w.length) := by omega
  have hcut : (line.take (cap + (o + w.length))).drop ((o / cap + 1) * cap) =
      ((line.drop cap).take (o + w.length)).drop (o / cap * cap) := by
    rw [Nat.add_mul, Nat.one_mul, Nat.add_comm (o / cap * cap) cap, ← List.drop_drop,
      List.drop_take, Nat.add_sub_cancel_left]
  rw [hstop, Nat.add_div_right _ hcap, Nat.add_div_right _ hcap, hend, hcut, List.drop_drop,
    Nat.add_comm cap o, Nat.add_right_cancel_iff]

omit [DecidableEq α] in
/-- A longer line has what its first piece has and what the rest of it has. -/
theorem fits_iff_of_le_length (hcap : 0 < cap) (hw : w ≠ []) (hl : cap ≤ line.length) :
    Fits Readable cap w line ↔
      Stands Readable w (line.take cap) ∨ Fits Readable cap w (line.drop cap) := by
  have hpos := List.length_pos_iff.mpr hw
  have hfirst (o : Nat) (hend : o + w.length ≤ cap) :
      (line.take (o + w.length)).drop (o / cap * cap) =
        (line.take cap).take (o + w.length) := by
    rw [Nat.div_eq_of_lt (by omega), Nat.zero_mul, List.drop_zero, List.take_take,
      Nat.min_eq_left hend]
  constructor
  · rintro ⟨o, ho, hsame, hreadable⟩
    rcases Nat.lt_or_ge o cap with hlt | hge
    · rw [Nat.div_eq_of_lt hlt, Nat.div_eq_zero_iff_lt hcap] at hsame
      rw [hfirst o (by omega)] at hreadable
      refine .inl ⟨o, ?_, hreadable⟩
      rw [List.drop_take, List.prefix_take_iff]
      exact ⟨ho, by omega⟩
    · obtain ⟨o, rfl⟩ := Nat.exists_eq_add_of_le' hge
      exact .inr ⟨o, (fits_rest_iff hcap hw o).mp ⟨ho, hsame, hreadable⟩⟩
  · rintro (⟨o, ho, hreadable⟩ | ⟨o, hrest⟩)
    · have hle := add_length_le ho hw
      rw [List.length_take, Nat.min_eq_left hl] at hle
      rw [← hfirst o hle] at hreadable
      rw [List.drop_take, List.prefix_take_iff] at ho
      refine ⟨o, ho.1, ?_, hreadable⟩
      rw [Nat.div_eq_of_lt (by omega), Nat.div_eq_of_lt (by omega)]
    · exact ⟨o + cap, (fits_rest_iff hcap hw o).mpr hrest⟩

omit [DecidableEq α] in
/-- The line end is no part of what is looked for. -/
theorem stands_append_lineEnd (hw : w ≠ []) (hend : lineEnd ∉ w) :
    Stands Readable w (line ++ [lineEnd]) ↔ Stands Readable w line := by
  refine exists_congr fun o ↦ ?_
  rcases Nat.lt_or_ge line.length o with hlt | hle
  · have hnone (l : List α) (hl : l.length ≤ o) : ¬ w <+: l.drop o := fun h ↦ by
      rw [List.drop_of_length_le hl] at h
      exact hw (List.prefix_nil.mp h)
    refine iff_of_false (fun h ↦ hnone _ ?_ h.1) fun h ↦ hnone _ (Nat.le_of_lt hlt) h.1
    rw [List.length_append, List.length_singleton]
    omega
  · rw [List.drop_append_of_le_length hle, List.prefix_concat_iff]
    have hmem : w ≠ line.drop o ++ [lineEnd] := fun h ↦
      hend (h ▸ List.mem_append_right _ (List.mem_singleton_self lineEnd))
    rw [or_iff_right hmem]
    refine and_congr_right fun ho ↦ ?_
    have hlength := add_length_le ho hw
    rw [List.take_append_of_le_length hlength]

/-! ### The whole text -/

/-- What is looked for piece by piece is found exactly if a line has it in one piece, readable up
to there. -/
theorem exists_mem_pieces_iff (hcap : 0 < cap) (hw : w ≠ []) (hend : lineEnd ∉ w) {fuel : Nat}
    (hfuel : xs.length ≤ fuel) :
    (∃ piece ∈ pieces lineEnd cap fuel xs, Stands Readable w piece) ↔
      ∃ line ∈ xs.splitOn lineEnd, Fits Readable cap w line := by
  have hnil : ¬ Fits Readable cap w [] := by
    rintro ⟨o, ho, -⟩
    rw [List.drop_nil] at ho
    exact hw (List.prefix_nil.mp ho)
  induction fuel generalizing xs with
  | zero =>
    have hempty : xs = [] := List.length_eq_zero_iff.mp (Nat.le_zero.mp hfuel)
    subst hempty
    simp only [pieces, List.splitOn_nil, List.not_mem_nil, false_and, exists_false,
      List.mem_singleton, exists_eq_left, hnil]
  | succ fuel ih =>
    cases xs with
    | nil =>
      simp only [pieces, List.splitOn_nil, List.not_mem_nil, false_and, exists_false,
        List.mem_singleton, exists_eq_left, hnil]
    | cons x xs =>
      have hrest (rest : List α) (hlength : rest.length ≤ fuel) :
          (∃ piece ∈ pieces lineEnd cap fuel rest, Stands Readable w piece) ↔
            ∃ line ∈ rest.splitOn lineEnd, Fits Readable cap w line := ih hlength
      rw [pieces, List.exists_mem_cons_iff]
      by_cases hmem : lineEnd ∈ x :: xs
      · obtain ⟨line, rest, heq, hline⟩ := List.eq_append_cons_of_mem hmem
        rw [heq] at hfuel ⊢
        rw [List.length_append, List.length_cons] at hfuel
        rw [List.splitOn_append_cons_self_of_not_mem hline, List.exists_mem_cons_iff]
        rcases Nat.lt_or_ge line.length cap with hshort | hlong
        · rw [read_line hline hshort, hrest rest (by omega), stands_append_lineEnd hw hend,
            fits_iff_of_length_le hw (Nat.le_of_lt hshort)]
        · have hdrop : lineEnd ∉ line.drop cap := fun h ↦ hline (List.mem_of_mem_drop h)
          have hlength : (line.drop cap ++ lineEnd :: rest).length ≤ fuel := by
            rw [List.length_append, List.length_drop, List.length_cons]
            omega
          rw [read_take hline hlong, hrest _ hlength,
            List.splitOn_append_cons_self_of_not_mem hdrop, List.exists_mem_cons_iff,
            fits_iff_of_le_length hcap hw hlong, or_assoc]
      · rw [List.splitOn_eq_singleton hmem]
        simp only [List.mem_singleton, exists_eq_left]
        generalize hline : x :: xs = line at hfuel hmem ⊢
        rcases Nat.le_total line.length cap with hshort | hlong
        · rw [read_all hmem hshort, hrest [] (Nat.zero_le _), fits_iff_of_length_le hw hshort]
          simp only [List.splitOn_nil, List.mem_singleton, exists_eq_left, hnil, or_false]
        · have hdrop : lineEnd ∉ line.drop cap := fun h ↦ hmem (List.mem_of_mem_drop h)
          have hpos : 0 < line.length := by
            rw [← hline]
            exact Nat.succ_pos _
          have hlength : (line.drop cap).length ≤ fuel := by
            rw [List.length_drop]
            omega
          have hread : read lineEnd cap line = (line.take cap, line.drop cap) := by
            have htake : read lineEnd cap (line ++ []) = (line.take cap, line.drop cap ++ []) :=
              read_take hmem hlong
            rwa [List.append_nil, List.append_nil] at htake
          rw [hread, hrest _ hlength, List.splitOn_eq_singleton hdrop,
            fits_iff_of_le_length hcap hw hlong]
          simp only [List.mem_singleton, exists_eq_left]

end LinePieces
