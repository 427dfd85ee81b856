import Mathlib.Data.List.Basic

/-!
# Prefix codes and reassembly of a byte stream

A prefix code writes each message as a non-empty word that is never the beginning
of another message's word. Concatenations then have one parse, and every cut of
such a stream splits it into complete words and a proper beginning of the next one.
The module is independent of what the messages and the letters are.
-/

universe u v

/-- A code in which a word, whatever follows it, determines its message. -/
structure PrefixCode (M : Type u) (B : Type v) where
  encode : M → List B
  encode_ne_nil : ∀ m, encode m ≠ []
  encode_append_inj : ∀ m m' s s', encode m ++ s = encode m' ++ s' → m = m'

namespace PrefixCode

variable {M : Type u} {B : Type v} (C : PrefixCode M B)

/-- The concatenation of the words of a list of messages. -/
def stream (ms : List M) : List B := ms.flatMap C.encode

/-- The messages whose words lie completely within the first `n` letters of the stream. -/
def completeWithin : List M → Nat → List M
  | [], _ => []
  | m :: ms, n =>
    if (C.encode m).length ≤ n then m :: completeWithin ms (n - (C.encode m).length) else []

/-- The letters among the first `n` that belong to a word not yet complete. -/
def pending (ms : List M) (n : Nat) : List B :=
  ((C.stream ms).take n).drop (C.stream (C.completeWithin ms n)).length

@[simp] theorem stream_nil : C.stream [] = [] := rfl

@[simp] theorem stream_cons (m : M) (ms : List M) :
    C.stream (m :: ms) = C.encode m ++ C.stream ms := rfl

@[simp] theorem stream_append (ms ms' : List M) :
    C.stream (ms ++ ms') = C.stream ms ++ C.stream ms' := List.flatMap_append

/-- Words have positive length. -/
theorem encode_length_pos (m : M) : 0 < (C.encode m).length :=
  List.length_pos_iff.mpr (C.encode_ne_nil m)

/-- No word is a beginning of another message's word. -/
theorem eq_of_encode_prefix {m m' : M} (h : C.encode m <+: C.encode m') : m = m' := by
  obtain ⟨s, hs⟩ := h
  exact C.encode_append_inj m m' s [] (by rw [hs, List.append_nil])

/-- A concatenation of words has one parse. -/
theorem stream_injective : Function.Injective C.stream := by
  intro ms
  induction ms with
  | nil =>
    intro ms' h
    cases ms' with
    | nil => rfl
    | cons m' ms' =>
      exact absurd (List.append_eq_nil_iff.mp h.symm).1 (C.encode_ne_nil m')
  | cons m ms ih =>
    intro ms' h
    cases ms' with
    | nil => exact absurd (List.append_eq_nil_iff.mp h).1 (C.encode_ne_nil m)
    | cons m' ms' =>
      have hm : m = m' := C.encode_append_inj m m' _ _ h
      subst hm
      rw [ih (List.append_cancel_left h)]

/-! ### Cutting a stream after `n` letters -/

/-- No word is complete before the first letter. -/
theorem completeWithin_zero (ms : List M) : C.completeWithin ms 0 = [] := by
  cases ms with
  | nil => rfl
  | cons m ms => rw [completeWithin, if_neg (Nat.not_le.mpr (C.encode_length_pos m))]

/-- No letter is pending before the first one. -/
theorem pending_zero (ms : List M) : C.pending ms 0 = [] := by
  rw [pending, List.take_zero, List.drop_nil]

/-- The complete words and the pending letters are together the first `n` letters. -/
theorem stream_completeWithin_append_pending (ms : List M) (n : Nat) :
    C.stream (C.completeWithin ms n) ++ C.pending ms n = (C.stream ms).take n := by
  suffices h : C.stream (C.completeWithin ms n) <+: (C.stream ms).take n by
    obtain ⟨t, ht⟩ := h
    rw [pending, ← ht, List.drop_left]
  induction ms generalizing n with
  | nil => simp [completeWithin]
  | cons m ms ih =>
    rw [completeWithin]
    split
    · next hn =>
      rw [stream_cons, stream_cons, List.take_append, List.take_of_length_le hn]
      exact (List.prefix_append_right_inj _).mpr (ih _)
    · exact List.nil_prefix

/-- The pending letters are a proper beginning of a word of the stream. -/
theorem pending_eq_nil_or_proper (ms : List M) (n : Nat) :
    C.pending ms n = [] ∨ ∃ m ∈ ms, ∃ s, s ≠ [] ∧ C.encode m = C.pending ms n ++ s := by
  induction ms generalizing n with
  | nil => left; simp [pending, completeWithin]
  | cons m ms ih =>
    by_cases hn : (C.encode m).length ≤ n
    · have hp : C.pending (m :: ms) n = C.pending ms (n - (C.encode m).length) := by
        rw [pending, pending, completeWithin, if_pos hn, stream_cons, stream_cons,
          List.take_append, List.take_of_length_le hn, List.length_append, List.drop_append,
          List.drop_of_length_le (by omega), List.nil_append, Nat.add_sub_cancel_left]
      rw [hp]
      rcases ih (n - (C.encode m).length) with h | ⟨m', hm', s, hs, he⟩
      · exact Or.inl h
      · exact Or.inr ⟨m', List.mem_cons_of_mem m hm', s, hs, he⟩
    · right
      have hp : C.pending (m :: ms) n = (C.encode m).take n := by
        rw [pending, completeWithin, if_neg hn, stream_nil, List.length_nil, List.drop_zero,
          stream_cons, List.take_append_of_le_length (by omega)]
      refine ⟨m, List.mem_cons_self, (C.encode m).drop n, ?_, ?_⟩
      · intro h
        have := congrArg List.length h
        rw [List.length_drop, List.length_nil] at this
        omega
      · rw [hp, List.take_append_drop]

/-- More letters complete at least the same words. -/
theorem completeWithin_prefix (ms : List M) {n n' : Nat} (h : n ≤ n') :
    C.completeWithin ms n <+: C.completeWithin ms n' := by
  induction ms generalizing n n' with
  | nil => exact List.nil_prefix
  | cons m ms ih =>
    rw [completeWithin, completeWithin]
    split
    · rw [if_pos (by omega)]
      exact List.cons_prefix_cons.mpr ⟨rfl, ih (by omega)⟩
    · exact List.nil_prefix

/-- What arrives after the first `n` letters completes some further words: behind the
pending letters it is exactly these words and the letters pending then. -/
theorem pending_append (ms : List M) {n n' : Nat} (h : n ≤ n') {c : List B}
    (hc : (C.stream ms).take n' = (C.stream ms).take n ++ c) :
    ∃ new, C.completeWithin ms n' = C.completeWithin ms n ++ new ∧
      C.pending ms n ++ c = C.stream new ++ C.pending ms n' := by
  obtain ⟨new, hnew⟩ := C.completeWithin_prefix ms h
  refine ⟨new, hnew.symm, ?_⟩
  have h : C.stream (C.completeWithin ms n) ++ (C.pending ms n ++ c) =
      C.stream (C.completeWithin ms n) ++ (C.stream new ++ C.pending ms n') := by
    calc C.stream (C.completeWithin ms n) ++ (C.pending ms n ++ c)
        = (C.stream ms).take n ++ c := by
          rw [← List.append_assoc, stream_completeWithin_append_pending]
      _ = C.stream (C.completeWithin ms n') ++ C.pending ms n' := by
          rw [← hc, stream_completeWithin_append_pending]
      _ = C.stream (C.completeWithin ms n) ++ (C.stream new ++ C.pending ms n') := by
          rw [← hnew, stream_append, List.append_assoc]
  exact List.append_cancel_left h

/-- Words behind the first `n` letters do not matter for them. -/
theorem completeWithin_append (ms ms' : List M) {n : Nat} (h : n ≤ (C.stream ms).length) :
    C.completeWithin (ms ++ ms') n = C.completeWithin ms n := by
  induction ms generalizing n with
  | nil =>
    cases Nat.le_zero.mp h
    rw [completeWithin_zero, completeWithin_zero]
  | cons m ms ih =>
    rw [stream_cons, List.length_append] at h
    rw [List.cons_append, completeWithin, completeWithin]
    split
    · rw [ih (by omega)]
    · rfl

/-- Nor for the letters pending after them. -/
theorem pending_append_words (ms ms' : List M) {n : Nat} (h : n ≤ (C.stream ms).length) :
    C.pending (ms ++ ms') n = C.pending ms n := by
  rw [pending, pending, completeWithin_append C ms ms' h, stream_append,
    List.take_append_of_le_length h]

/-- All letters complete all words. -/
theorem completeWithin_length (ms : List M) :
    C.completeWithin ms (C.stream ms).length = ms := by
  induction ms with
  | nil => rfl
  | cons m ms ih =>
    rw [stream_cons, List.length_append, completeWithin, if_pos (by omega),
      Nat.add_sub_cancel_left, ih]

/-- Within a word exactly the words in front of it are complete. -/
theorem completeWithin_inside (ms : List M) (m : M) (ms' : List M) {n : Nat}
    (h : (C.stream ms).length ≤ n) (h' : n < (C.stream ms).length + (C.encode m).length) :
    C.completeWithin (ms ++ m :: ms') n = ms := by
  induction ms generalizing n with
  | nil =>
    rw [stream_nil, List.length_nil, Nat.zero_add] at h'
    rw [List.nil_append, completeWithin, if_neg (Nat.not_le.mpr h')]
  | cons m₀ ms ih =>
    rw [stream_cons, List.length_append] at h h'
    rw [List.cons_append, completeWithin, if_pos (by omega), ih (by omega) (by omega)]

/-- Within a word the letters of its beginning are pending. -/
theorem length_pending_inside (ms : List M) (m : M) (ms' : List M) {n : Nat}
    (h : (C.stream ms).length ≤ n) (h' : n < (C.stream ms).length + (C.encode m).length) :
    (C.pending (ms ++ m :: ms') n).length = n - (C.stream ms).length := by
  rw [pending, completeWithin_inside C ms m ms' h h', List.length_drop, List.length_take,
    stream_append, stream_cons, List.length_append, List.length_append]
  omega

/-- The words that are not complete are the rest of the stream behind those that are. -/
theorem exists_stream_rest (ms : List M) (n : Nat) :
    ∃ rest, ms = C.completeWithin ms n ++ rest ∧
      C.pending ms n ++ (C.stream ms).drop n = C.stream rest := by
  obtain ⟨rest, hrest⟩ : C.completeWithin ms n <+: ms := by
    induction ms generalizing n with
    | nil => exact List.nil_prefix
    | cons m ms ih =>
      rw [completeWithin]
      split
      · exact List.cons_prefix_cons.mpr ⟨rfl, ih _⟩
      · exact List.nil_prefix
  refine ⟨rest, hrest.symm, ?_⟩
  have hstream : C.stream (C.completeWithin ms n) ++ (C.pending ms n ++ (C.stream ms).drop n) =
      C.stream (C.completeWithin ms n) ++ C.stream rest := by
    rw [← List.append_assoc, stream_completeWithin_append_pending, List.take_append_drop,
      ← stream_append, hrest]
  exact List.append_cancel_left hstream

/-! ### Readers that decode each piece on its own -/

variable {C}

private theorem stream_filterMap_length_le {read : List B → Option M} {cs : List (List B)}
    (hr : ∀ c ∈ cs, ∀ m, read c = some m → C.encode m <+: c) :
    (C.stream (cs.filterMap read)).length ≤ cs.flatten.length := by
  induction cs with
  | nil => simp
  | cons c cs ih =>
    have ht := ih (fun d hd ↦ hr d (List.mem_cons_of_mem c hd))
    rw [List.flatten_cons, List.length_append]
    cases hc : read c with
    | none =>
      rw [List.filterMap_cons_none hc]
      omega
    | some m =>
      have hl := (hr c List.mem_cons_self m hc).length_le
      rw [List.filterMap_cons_some hc, stream_cons, List.length_append]
      omega

/-- A reader that looks at every piece of a stream separately, and takes a message only
from a piece beginning with its word, recovers the sent messages only from pieces that
are exactly their words. -/
theorem pieces_eq_words {read : List B → Option M} {ms : List M} {cs : List (List B)}
    (hr : ∀ c ∈ cs, ∀ m, read c = some m → C.encode m <+: c) (hne : ∀ c ∈ cs, c ≠ [])
    (hs : cs.flatten = C.stream ms) (h : cs.filterMap read = ms) :
    cs = ms.map C.encode := by
  induction cs generalizing ms with
  | nil =>
    rw [List.filterMap_nil] at h
    subst h
    rfl
  | cons c cs ih =>
    have hr' : ∀ d ∈ cs, ∀ m, read d = some m → C.encode m <+: d :=
      fun d hd ↦ hr d (List.mem_cons_of_mem c hd)
    have hl := stream_filterMap_length_le hr'
    have hcs := congrArg List.length hs
    rw [List.flatten_cons, List.length_append] at hcs
    cases hc : read c with
    | none =>
      rw [List.filterMap_cons_none hc] at h
      have hpos := List.length_pos_iff.mpr (hne c List.mem_cons_self)
      rw [h] at hl
      omega
    | some m =>
      rw [List.filterMap_cons_some hc] at h
      subst h
      obtain ⟨t, ht⟩ := hr c List.mem_cons_self m hc
      have htail : t ++ cs.flatten = C.stream (cs.filterMap read) := by
        rw [List.flatten_cons, ← ht, stream_cons, List.append_assoc] at hs
        exact List.append_cancel_left hs
      -- the later pieces already carry every later word, so nothing is left for `t`
      have hnil : t = [] := by
        have := congrArg List.length htail
        rw [List.length_append] at this
        exact List.length_eq_zero_iff.mp (by omega)
      subst hnil
      rw [List.append_nil] at ht
      rw [List.map_cons, ht]
      congr 1
      exact ih hr' (fun d hd ↦ hne d (List.mem_cons_of_mem c hd)) htail rfl

end PrefixCode

/-- A stream that is cut, in the order in which it is read, into the words of items and into
gaps between them, the gaps being any pieces with a given property. -/
inductive Segments {α : Type u} {β : Type v} (encode : α → List β) (Gap : List β → Prop) :
    List α → List β → Prop
  | nil : Segments encode Gap [] []
  | gap {as : List α} {s g : List β} (h : Segments encode Gap as s) (hg : Gap g) :
    Segments encode Gap as (s ++ g)
  | item {as : List α} {s : List β} (h : Segments encode Gap as s) (a : α) :
    Segments encode Gap (as ++ [a]) (s ++ encode a)
