import Mathlib.Data.List.GetD
import Mathlib.Order.Lattice

/-! # Segmentation and reassembly

A sequence of messages is cut into packets without regard to where a message ends. A packet then
holds a piece of each message it touches, and says whether its first piece begins a message and
its last one ends one. From the packets that are not lost, in their order, the messages are put
together again.
-/

namespace Bullet.Lib.Segmentation

variable {α : Type*} {l : List (List α)}

/-- A place in a sequence of messages: so many messages, and so many elements of the next. -/
structure Cut where
  message : ℕ := 0
  element : ℕ := 0
deriving DecidableEq, Repr

/-- The piece of a message that a packet ending at the cut leaves incomplete. -/
def beginning (l : List (List α)) (c : Cut) : List (List α) :=
  if c.element = 0 then [] else [(l.getD c.message []).take c.element]

/-- The pieces between two cuts. -/
def pieces (l : List (List α)) (c d : Cut) : List (List α) :=
  if c.message = d.message then [((l.getD c.message []).take d.element).drop c.element]
  else
    (l.getD c.message []).drop c.element ::
      ((l.take d.message).drop (c.message + 1) ++ beginning l d)

/-- A cut in the sequence. -/
structure Within (l : List (List α)) (c : Cut) : Prop where
  bound : c.message ≤ l.length
  inside : c.element ≠ 0 → c.message < l.length

/-- A cut after another one. -/
structure Follows (l : List (List α)) (c d : Cut) : Prop where
  le : c.message ≤ d.message
  lt : c.message = d.message → c.element < d.element
  within : Within l d

/-! ## Reassembly -/

/-- The first piece continues the message that is kept; without it, the piece is useless. -/
def join : Option (List α) → Bool → List (List α) → List (List α)
  | _, true, ps => ps
  | some k, false, p :: ps => (k ++ p) :: ps
  | some _, false, [] => []
  | none, false, ps => ps.tail

/-- What is kept of the last message, and the messages that are complete. -/
def feed (kept : Option (List α)) (starts ends : Bool) (ps : List (List α)) :
    Option (List α) × List (List α) :=
  if ends then (none, join kept starts ps)
  else ((join kept starts ps).getLast?, (join kept starts ps).dropLast)

/-- The messages delivered are some of those before the cut, in their order, and what is kept is
the beginning of the next one. -/
structure Upto (l : List (List α)) (c : Cut) (kept : Option (List α))
    (delivered : List (List α)) : Prop where
  sublist : delivered.Sublist (l.take c.message)
  kept : ∀ k, kept = some k → c.element ≠ 0 ∧ k = (l.getD c.message []).take c.element

variable {c d : Cut} {kept : Option (List α)} {delivered : List (List α)}

/-- A packet is lost: what was kept is dropped. -/
theorem Upto.lose (h : Upto l c kept delivered) (hLe : c.message ≤ d.message) :
    Upto l d none delivered where
  sublist := h.sublist.trans (List.take_sublist_take_left hLe)
  kept := nofun

theorem drop_take_cons (hLt : c.message < d.message) (hBound : d.message ≤ l.length) :
    (l.take d.message).drop c.message =
      l.getD c.message [] :: (l.take d.message).drop (c.message + 1) := by
  have hLength : c.message < (l.take d.message).length := by
    rw [List.length_take]
    omega
  rw [List.drop_eq_getElem_cons hLength, List.getElem_take, List.getD_eq_getElem]

theorem Upto.append_between (h : Upto l c kept delivered) (hLe : c.message ≤ d.message) :
    (delivered ++ (l.take d.message).drop c.message).Sublist (l.take d.message) := by
  have hSplit : l.take c.message ++ (l.take d.message).drop c.message = l.take d.message := by
    have hTake := List.take_append_drop c.message (l.take d.message)
    rw [List.take_take, min_eq_left hLe] at hTake
    exact hTake
  have hAppend := h.sublist.append_right ((l.take d.message).drop c.message)
  rw [hSplit] at hAppend
  exact hAppend

/-- The complete messages of a packet, and what is left incomplete. -/
theorem join_cases (h : Upto l c kept delivered) (hFollows : Follows l c d) :
    ∃ complete, (delivered ++ complete).Sublist (l.take d.message) ∧
      (join kept (decide (c.element = 0)) (pieces l c d) = complete ++ beginning l d ∨
        complete = [] ∧ d.element ≠ 0 ∧
          join kept (decide (c.element = 0)) (pieces l c d) = []) := by
  have hBetween := h.append_between hFollows.le
  unfold pieces
  by_cases hSame : c.message = d.message
  · have hLt := hFollows.lt hSame
    have hInside : d.element ≠ 0 := by omega
    refine ⟨[], ?_, ?_⟩
    · rw [List.append_nil, ← hSame]
      exact h.sublist
    · rw [if_pos hSame, beginning, if_neg hInside, ← hSame, List.nil_append]
      by_cases hStarts : c.element = 0
      · left
        rw [decide_eq_true hStarts, hStarts, List.drop_zero]
        rfl
      · rw [decide_eq_false hStarts]
        cases kept with
        | none => exact .inr ⟨rfl, hInside, rfl⟩
        | some k =>
          left
          have hKept := (h.kept k rfl).2
          have hTake : ((l.getD c.message []).take d.element).take c.element = k := by
            rw [List.take_take, min_eq_left hLt.le, hKept]
          exact congrArg (fun p => [p]) (hTake ▸ List.take_append_drop c.element _)
  · have hLt : c.message < d.message := lt_of_le_of_ne hFollows.le hSame
    rw [drop_take_cons hLt hFollows.within.bound] at hBetween
    rw [if_neg hSame]
    by_cases hStarts : c.element = 0
    · refine ⟨_, hBetween, .inl ?_⟩
      rw [decide_eq_true hStarts, hStarts, List.drop_zero]
      rfl
    · rw [decide_eq_false hStarts]
      cases kept with
      | none =>
        refine ⟨_, List.Sublist.trans ?_ hBetween, .inl rfl⟩
        exact (List.sublist_cons_self ..).append_left delivered
      | some k =>
        refine ⟨_, hBetween, .inl ?_⟩
        rw [(h.kept k rfl).2, join, List.take_append_drop, List.cons_append]

/-- A packet that is not lost: the messages it completes are delivered. -/
theorem Upto.feed (h : Upto l c kept delivered) (hFollows : Follows l c d) :
    Upto l d (feed kept (decide (c.element = 0)) (decide (d.element = 0)) (pieces l c d)).1
      (delivered ++
        (Segmentation.feed kept (decide (c.element = 0)) (decide (d.element = 0))
          (pieces l c d)).2) := by
  obtain ⟨complete, hSublist, hJoin | ⟨rfl, hInside, hJoin⟩⟩ := join_cases h hFollows
  · unfold Segmentation.feed
    rw [hJoin, beginning]
    by_cases hEnds : d.element = 0
    · rw [if_pos (decide_eq_true hEnds), if_pos hEnds, List.append_nil]
      exact ⟨hSublist, nofun⟩
    · rw [if_neg (by simpa using hEnds), if_neg hEnds, List.getLast?_concat,
        List.dropLast_concat]
      refine ⟨hSublist, fun k hKept => ⟨hEnds, ?_⟩⟩
      exact (Option.some_inj.mp hKept).symm
  · unfold Segmentation.feed
    rw [hJoin, if_neg (by simpa using hInside)]
    exact ⟨hSublist, nofun⟩

/-! ## Segmentation -/

/-- What is left of the sequence behind a cut. -/
def rest (l : List (List α)) (c : Cut) : List (List α) :=
  match l.drop c.message with
  | [] => []
  | p :: ps => p.drop c.element :: ps

/-- The cut behind so many more complete messages and the first `k` elements of the next, of
which there are `size` left. -/
def Cut.advance (c : Cut) (full k size : ℕ) : Cut :=
  if k < size then ⟨c.message + full, if full = 0 then c.element + k else k⟩
  else ⟨c.message + full + 1, 0⟩

variable {full remaining : List (List α)} {p : List α} {k n size : ℕ}

theorem advance_succ (hLt : k < size) : c.advance (n + 1) k size = ⟨c.message + 1 + n, k⟩ := by
  rw [Cut.advance, if_pos hLt, if_neg (Nat.succ_ne_zero n), Nat.add_right_comm, Nat.add_assoc]

theorem advance_succ_whole (hAll : ¬ k < size) :
    c.advance (n + 1) k size = ⟨c.message + 1 + (n + 1), 0⟩ := by
  rw [Cut.advance, if_neg hAll, Nat.add_right_comm]

theorem pieces_of_lt (hLt : c.message < d.message) : pieces l c d =
    (l.getD c.message []).drop c.element ::
      ((l.take d.message).drop (c.message + 1) ++ beginning l d) :=
  if_neg hLt.ne

theorem rest_of_lt (hLt : c.message < l.length) :
    rest l c = (l.getD c.message []).drop c.element :: l.drop (c.message + 1) := by
  rw [rest, List.drop_eq_getElem_cons hLt, List.getD_eq_getElem l [] hLt]

@[simp] theorem rest_start : rest l ⟨n, 0⟩ = l.drop n := by
  rw [rest]
  cases l.drop n with
  | nil => rfl
  | cons p ps => rfl

theorem lt_of_rest (hRest : rest l c = full ++ p :: remaining) : c.message < l.length := by
  by_contra hNot
  rw [rest, List.drop_eq_nil_of_le (by omega)] at hRest
  simp at hRest

/-- A message that is left whole. -/
theorem whole_of_drop (hDrop : l.drop (c.message + 1) = full ++ p :: remaining) :
    c.message + 1 + full.length < l.length ∧ l.getD (c.message + 1 + full.length) [] = p ∧
      l.drop (c.message + 1 + full.length) = p :: remaining := by
  have hLater : l.drop (c.message + 1 + full.length) = p :: remaining := by
    rw [← List.drop_drop, hDrop, List.drop_left]
  have hLt : c.message + 1 + full.length < l.length := by
    by_contra hNot
    rw [List.drop_eq_nil_of_le (by omega)] at hLater
    cases hLater
  refine ⟨hLt, ?_, hLater⟩
  rw [List.drop_eq_getElem_cons hLt] at hLater
  rw [List.getD_eq_getElem l [] hLt]
  exact (List.cons.inj hLater).1

theorem follows_advance (hRest : rest l c = full ++ p :: remaining) (hPos : 0 < k) :
    Follows l c (c.advance full.length k p.length) := by
  have hLt := lt_of_rest hRest
  rw [rest_of_lt hLt] at hRest
  cases full with
  | nil =>
    unfold Cut.advance
    split
    · exact ⟨by dsimp; omega, by dsimp; omega, by dsimp; omega, by dsimp; omega⟩
    · exact ⟨by dsimp; omega, by dsimp; omega, by dsimp; omega, nofun⟩
  | cons q full =>
    obtain ⟨hBound, -, -⟩ := whole_of_drop (List.cons.inj hRest).2
    unfold Cut.advance
    split
    · exact ⟨by dsimp; omega, by dsimp; omega, by dsimp; omega, by dsimp; omega⟩
    · exact ⟨by dsimp; omega, by dsimp; omega, by dsimp; omega, nofun⟩

theorem drop_take_eq (hDrop : l.drop (c.message + 1) = full ++ p :: remaining) (n : ℕ) :
    (l.take (c.message + 1 + n)).drop (c.message + 1) = (full ++ p :: remaining).take n := by
  rw [List.drop_take, hDrop, Nat.add_sub_cancel_left]

/-- The pieces of what is taken. -/
theorem pieces_advance (hRest : rest l c = full ++ p :: remaining) (hPos : 0 < k) :
    pieces l c (c.advance full.length k p.length) = full ++ [p.take k] := by
  have hLt := lt_of_rest hRest
  rw [rest_of_lt hLt] at hRest
  cases full with
  | nil =>
    obtain ⟨rfl, -⟩ := List.cons.inj hRest
    unfold Cut.advance
    split
    · simp [pieces, List.drop_take]
    · next hAll =>
      rw [List.take_of_length_le (Nat.not_lt.mp hAll)]
      simp [pieces, beginning]
  | cons q full =>
    obtain ⟨rfl, hDrop⟩ := List.cons.inj hRest
    obtain ⟨-, hWhole, -⟩ := whole_of_drop hDrop
    rw [List.length_cons, List.cons_append]
    by_cases hShort : k < p.length
    · have hTake := drop_take_eq hDrop full.length
      rw [List.take_left] at hTake
      rw [advance_succ hShort, pieces_of_lt (by dsimp; omega), hTake, beginning,
        if_neg (Nat.ne_of_gt hPos), hWhole]
    · have hTake := drop_take_eq hDrop (full.length + 1)
      rw [List.take_length_add_append] at hTake
      rw [advance_succ_whole hShort, pieces_of_lt (by dsimp; omega), hTake, beginning, if_pos rfl,
        List.append_nil, List.take_of_length_le (Nat.not_lt.mp hShort)]
      rfl

/-- What is given back is in front of the rest. -/
theorem rest_advance (hRest : rest l c = full ++ p :: remaining) :
    rest l (c.advance full.length k p.length) =
      (if k < p.length then [p.drop k] else []) ++ remaining := by
  have hLt := lt_of_rest hRest
  rw [rest_of_lt hLt] at hRest
  cases full with
  | nil =>
    obtain ⟨rfl, rfl⟩ := List.cons.inj hRest
    unfold Cut.advance
    rw [List.length_nil, if_pos rfl, List.drop_drop]
    split
    · exact rest_of_lt hLt
    · rw [rest_start]
      rfl
  | cons q full =>
    obtain ⟨rfl, hDrop⟩ := List.cons.inj hRest
    obtain ⟨hBound, hWhole, hLater⟩ := whole_of_drop hDrop
    rw [List.length_cons]
    by_cases hShort : k < p.length
    · rw [advance_succ hShort, if_pos hShort, rest_of_lt hBound, hWhole, ← List.tail_drop, hLater]
      rfl
    · rw [advance_succ_whole hShort, if_neg hShort, rest_start, ← Nat.add_assoc, ← List.tail_drop,
        hLater]
      rfl

/-! ## A sequence that grows -/

theorem Within.append (h : Within l c) (m : List (List α)) : Within (l ++ m) c := by
  have hLength : l.length ≤ (l ++ m).length := (List.sublist_append_left l m).length_le
  exact ⟨h.bound.trans hLength, fun hInside => (h.inside hInside).trans_le hLength⟩

theorem Follows.append (h : Follows l c d) (m : List (List α)) : Follows (l ++ m) c d :=
  ⟨h.le, h.lt, h.within.append m⟩

theorem Follows.message_lt (h : Follows l c d) : c.message < l.length := by
  obtain hSame | hLt := h.le.eq_or_lt
  · have hElement := h.lt hSame
    exact hSame ▸ h.within.inside (by omega)
  · exact hLt.trans_le h.within.bound

theorem beginning_append (h : Within l c) (m : List (List α)) :
    beginning (l ++ m) c = beginning l c := by
  unfold beginning
  split
  · rfl
  · next hInside => rw [List.getD_append _ _ _ _ (h.inside hInside)]

theorem pieces_append (h : Follows l c d) (m : List (List α)) :
    pieces (l ++ m) c d = pieces l c d := by
  unfold pieces
  rw [List.getD_append _ _ _ _ h.message_lt, beginning_append h.within,
    List.take_append_of_le_length h.within.bound]

theorem Upto.append (h : Upto l c kept delivered) (hWithin : Within l c) (m : List (List α)) :
    Upto (l ++ m) c kept delivered where
  sublist := by
    rw [List.take_append_of_le_length hWithin.bound]
    exact h.sublist
  kept k hKept := by
    obtain ⟨hInside, hTake⟩ := h.kept k hKept
    rw [List.getD_append _ _ _ _ (hWithin.inside hInside)]
    exact ⟨hInside, hTake⟩

theorem rest_append (h : Within l c) (m : List (List α)) : rest (l ++ m) c = rest l c ++ m := by
  unfold rest
  rw [List.drop_append_of_le_length h.bound]
  cases hDrop : l.drop c.message with
  | cons p ps => rfl
  | nil =>
    have hEnd : c.element = 0 := by
      by_contra hInside
      exact absurd (h.inside hInside) (Nat.not_lt.mpr (List.drop_eq_nil_iff.mp hDrop))
    rw [hEnd]
    cases m with
    | nil => rfl
    | cons p ps => rfl

/-! ## Without a loss -/

/-- All messages before the cut have been delivered, and the beginning of the next one is kept. -/
structure Exactly (l : List (List α)) (c : Cut) (kept : Option (List α))
    (delivered : List (List α)) : Prop where
  delivered : delivered = l.take c.message
  kept : kept = if c.element = 0 then none else some ((l.getD c.message []).take c.element)

theorem exactly_start (l : List (List α)) : Exactly l {} none [] := ⟨rfl, rfl⟩

/-- Nothing is kept when the next packet begins a message. -/
theorem Exactly.kept_isSome (h : Exactly l c kept delivered) (hSome : kept.isSome) :
    decide (c.element = 0) = false := by
  apply decide_eq_false
  intro hStarts
  rw [h.kept, if_pos hStarts] at hSome
  cases hSome

theorem join_eq (h : Exactly l c kept delivered) (hFollows : Follows l c d) :
    join kept (decide (c.element = 0)) (pieces l c d) =
      (l.take d.message).drop c.message ++ beginning l d := by
  by_cases hSame : c.message = d.message
  · have hLt := hFollows.lt hSame
    have hNone : (l.take d.message).drop c.message = [] := by
      apply List.drop_eq_nil_of_le
      rw [hSame]
      exact List.length_take_le _ _
    rw [hNone, List.nil_append, pieces, if_pos hSame, beginning,
      if_neg (Nat.ne_of_gt (Nat.zero_lt_of_lt hLt)), ← hSame]
    by_cases hStarts : c.element = 0
    · rw [decide_eq_true hStarts, hStarts, List.drop_zero]
      rfl
    · have hTake : ((l.getD c.message []).take d.element).take c.element =
          (l.getD c.message []).take c.element := by
        rw [List.take_take, min_eq_left hLt.le]
      rw [h.kept, if_neg hStarts, decide_eq_false hStarts, ← hTake, join, List.take_append_drop]
  · have hLt : c.message < d.message := lt_of_le_of_ne hFollows.le hSame
    rw [drop_take_cons hLt hFollows.within.bound, pieces_of_lt hLt]
    by_cases hStarts : c.element = 0
    · rw [decide_eq_true hStarts, hStarts, List.drop_zero]
      rfl
    · rw [h.kept, if_neg hStarts, decide_eq_false hStarts, join, List.take_append_drop]
      rfl

/-- The next packet: all messages before its end have been delivered. -/
theorem Exactly.feed (h : Exactly l c kept delivered) (hFollows : Follows l c d) :
    Exactly l d (feed kept (decide (c.element = 0)) (decide (d.element = 0)) (pieces l c d)).1
      (delivered ++
        (Segmentation.feed kept (decide (c.element = 0)) (decide (d.element = 0))
          (pieces l c d)).2) := by
  have hBetween : delivered ++ (l.take d.message).drop c.message = l.take d.message := by
    have hTake := List.take_append_drop c.message (l.take d.message)
    rw [List.take_take, min_eq_left hFollows.le] at hTake
    rw [h.delivered, hTake]
  unfold Segmentation.feed
  rw [join_eq h hFollows, beginning]
  by_cases hEnds : d.element = 0
  · rw [if_pos (decide_eq_true hEnds), if_pos hEnds, List.append_nil]
    exact ⟨hBetween, (if_pos hEnds).symm⟩
  · rw [if_neg (by simpa using hEnds), if_neg hEnds, List.getLast?_concat, List.dropLast_concat]
    exact ⟨hBetween, (if_neg hEnds).symm⟩

theorem Exactly.append (h : Exactly l c kept delivered) (hWithin : Within l c)
    (m : List (List α)) : Exactly (l ++ m) c kept delivered where
  delivered := by rw [List.take_append_of_le_length hWithin.bound, h.delivered]
  kept := by
    rw [h.kept]
    split
    · rfl
    · next hInside => rw [List.getD_append _ _ _ _ (hWithin.inside hInside)]

end Bullet.Lib.Segmentation
