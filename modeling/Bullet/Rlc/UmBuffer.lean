import Bullet.Lib.ReorderingWindow
import Bullet.Rlc.Um
import Mathlib.Data.List.Sort

/-! # The reception buffer of an RLC UM entity

Sequence numbers are counted on past 1023. The buffer holds the PDUs of the numbers received from a
number on; the loops over it hand PDUs to the reassembly in the order of these numbers.
-/

namespace Bullet.Rlc

open Lib ReorderingWindow SequenceNumber10

/-- The sequence number of a number that is counted on. -/
def num (n : ℕ) : Fin 1024 := Fin.ofNat 1024 n

/-- The lower edge of the reordering window below `c`. -/
def edge (c : ℕ) : Fin 1024 := num c - Fin.ofNat 1024 512

variable {a c m n z : ℕ}

@[simp] theorem num_val (n : ℕ) : (num n).val = n % 1024 := rfl

theorem num_add_one (n : ℕ) : num n + 1 = num (n + 1) := by
  apply Fin.ext
  rw [Fin.val_add, num_val, num_val]
  change (n % 1024 + 1) % 1024 = _
  omega

theorem edge_eq (hLe : 512 ≤ c) : edge c = num (c - 512) := by
  apply Fin.ext
  rw [edge, Fin.sub_def]
  change (1024 - 512 + c % 1024) % 1024 = (c - 512) % 1024
  omega

theorem offset_num (hOld : c ≤ n + 512) (hNew : n < c + 512) :
    offset (edge c) (num n) + c = n + 512 := by
  have hEdge : (edge c).val = (512 + c % 1024) % 1024 := by
    rw [edge, Fin.sub_def]
    rfl
  rw [offset_eq, hEdge, num_val]
  omega

/-- A number that the window has left behind is seen above it. -/
theorem offset_num_behind (hOld : c ≤ n + 1024) (hBehind : n + 512 < c) :
    offset (edge c) (num n) + c = n + 512 + 1024 := by
  have hEdge : (edge c).val = (512 + c % 1024) % 1024 := by
    rw [edge, Fin.sub_def]
    rfl
  rw [offset_eq, hEdge, num_val]
  omega

theorem num_inj (hM : a ≤ m) (hM' : m < a + 1024) (hN : a ≤ n) (hN' : n < a + 1024) :
    num m = num n ↔ m = n := by
  rw [Fin.ext_iff, num_val, num_val]
  omega

/-- Every number of the ring stands for one of 1024 numbers in a row. -/
theorem exists_num (a : ℕ) (v : Fin 1024) : ∃ n, a ≤ n ∧ n < a + 1024 ∧ num n = v := by
  have hV := v.isLt
  refine ⟨a + (1024 - a % 1024 + v.val) % 1024, by omega, by omega, Fin.ext ?_⟩
  rw [num_val]
  omega

/-- The PDU has the sequence number of `n`. -/
def UmPdu.Numbered (p : UmPdu) (n : ℕ) : Prop :=
  ∃ h, p.peekHeader = some h ∧ h.sequenceNumber.value = num n

/-! ## What the buffer holds -/

/-- The buffer holds the PDUs received from `a` on. -/
def Holds (b : Fin 1024 → Option UmPdu) (a : ℕ) (received : Finset ℕ) (pdu : ℕ → UmPdu) : Prop :=
  ∀ n, a ≤ n → n < a + 1024 → b (num n) = if n ∈ received then some (pdu n) else none

variable {b : Fin 1024 → Option UmPdu} {received : Finset ℕ} {pdu : ℕ → UmPdu}

theorem Holds.isSome (h : Holds b a received pdu) (hLe : a ≤ n) (hLt : n < a + 1024) :
    (b (num n)).isSome = decide (n ∈ received) := by
  rw [h n hLe hLt]
  split
  · next hMem => exact (decide_eq_true hMem).symm
  · next hNot => exact (decide_eq_false hNot).symm

theorem Holds.place (h : Holds b a received pdu) (hLe : a ≤ n) (hLt : n < a + 1024) :
    Holds (Function.update b (num n) (some (pdu n))) a (insert n received) pdu := by
  intro m hM hM'
  by_cases hEq : m = n
  · rw [hEq, Function.update_self, if_pos (Finset.mem_insert_self n received)]
  · rw [Function.update_of_ne (mt (num_inj hM hM' hLe hLt).mp hEq), h m hM hM']
    simp only [Finset.mem_insert, hEq, false_or]

theorem Holds.remove (h : Holds b a received pdu) (hFar : a + 1024 ∉ received) :
    Holds (Function.update b (num a) none) (a + 1) received pdu := by
  intro m hM hM'
  by_cases hEq : m = a + 1024
  · have hSame : num m = num a := by
      apply Fin.ext
      rw [num_val, num_val]
      omega
    rw [hSame, Function.update_self, if_neg (hEq ▸ hFar)]
  · have hNe : num m ≠ num a :=
      mt (num_inj (by omega) (by omega) le_rfl (by omega)).mp (by omega)
    rw [Function.update_of_ne hNe, h m (by omega) (by omega)]

theorem Holds.skip (h : Holds b a received pdu) (hNot : a ∉ received)
    (hFar : a + 1024 ∉ received) : Holds b (a + 1) received pdu := by
  have hNone : b (num a) = none := by rw [h a le_rfl (by omega), if_neg hNot]
  have hRemove := h.remove hFar
  rwa [← hNone, Function.update_eq_self] at hRemove

/-! ## What is handed to the reassembly -/

/-- PDUs in a row. -/
def Reassembly.reassembleAll (r : Reassembly) :
    List UmPdu → Option (Reassembly × List (List UInt8))
  | [] => some (r, [])
  | p :: ps => do
    let (r, out) ← r.reassembleAndDeliver p
    let (r, out') ← reassembleAll r ps
    pure (r, out ++ out')

theorem reassembleAll_append (r : Reassembly) (ps qs : List UmPdu) :
    r.reassembleAll (ps ++ qs) = (r.reassembleAll ps).bind fun x =>
      (x.1.reassembleAll qs).map fun y => (y.1, x.2 ++ y.2) := by
  induction ps generalizing r with
  | nil =>
    rw [List.nil_append, Reassembly.reassembleAll, Option.bind_some]
    cases r.reassembleAll qs with
    | none => rfl
    | some y => rfl
  | cons p ps ih =>
    rw [List.cons_append, Reassembly.reassembleAll, Reassembly.reassembleAll]
    cases r.reassembleAndDeliver p with
    | none => rfl
    | some x =>
      simp only [Option.bind_eq_bind, Option.bind_some, ih]
      cases x.1.reassembleAll ps with
      | none => rfl
      | some y =>
        cases hLast : y.1.reassembleAll qs with
        | none => simp [hLast]
        | some y' => simp [hLast]

namespace LteRlcUm

/-- An action leads from `s` to `t`, but for the reassembly, which is handed the PDUs `ps`. -/
def Releases (f : LteRlcUm → Option (LteRlcUm × List (List UInt8))) (s t : LteRlcUm)
    (ps : List UmPdu) : Prop :=
  ∀ r, f { s with reassembly := r } =
    (r.reassembleAll ps).map fun x => ({ t with reassembly := x.1 }, x.2)

variable {f g : LteRlcUm → Option (LteRlcUm × List (List UInt8))} {s t u : LteRlcUm}
  {ps qs : List UmPdu}

theorem Releases.append (hF : Releases f s t ps) (hG : Releases g t u qs) :
    Releases (fun s => (f s).bind fun x => (g x.1).map fun y => (y.1, x.2 ++ y.2)) s u
      (ps ++ qs) := by
  intro r
  dsimp only
  rw [hF r, reassembleAll_append]
  cases r.reassembleAll ps with
  | none => rfl
  | some x =>
    rw [Option.map_some, Option.bind_some, hG x.1, Option.bind_some, Option.map_map,
      Option.map_map]
    rfl

theorem Releases.of_eq {s' : LteRlcUm} (hG : Releases g s' t ps)
    (hEq : ∀ r, f { s with reassembly := r } = g { s' with reassembly := r }) :
    Releases f s t ps := fun r => (hEq r).trans (hG r)

theorem releases_nil
    (hF : ∀ r, f { s with reassembly := r } = some ({ t with reassembly := r }, [])) :
    Releases f s t [] := hF

/-- A PDU that is held is handed over first. -/
theorem Releases.release {v : Fin 1024} {p : UmPdu}
    (hG : Releases g { s with rxBuffer := Function.update s.rxBuffer v none } t ps) :
    Releases (fun s => (s.release v p).bind fun x => (g x.1).map fun y => (y.1, x.2 ++ y.2)) s t
      (p :: ps) := by
  intro r
  dsimp only [LteRlcUm.release]
  rw [Reassembly.reassembleAll]
  cases r.reassembleAndDeliver p with
  | none => rfl
  | some x =>
    rw [Option.map_some, Option.bind_some, hG x.1]
    cases hRest : x.1.reassembleAll ps with
    | none => simp [hRest]
    | some y => simp [hRest]

/-! ## The loop over an interval -/

theorem intervalLoop_succ (fuel : ℕ) (s : LteRlcUm) (sn high : SequenceNumber10)
    (hBase : sn.modulusBase = high.modulusBase) :
    intervalLoop (fuel + 1) s sn high =
      if offset sn.modulusBase sn.value < offset sn.modulusBase high.value then
        match s.rxBuffer sn.value with
        | none => intervalLoop fuel s sn.increment high
        | some p => (s.release sn.value p).bind fun x =>
          (intervalLoop fuel x.1 sn.increment high).map fun y => (y.1, x.2 ++ y.2)
      else some (s, []) := by
  rw [intervalLoop, lt_eq rfl hBase.symm, Option.bind_eq_bind, Option.bind_some]
  simp only [decide_eq_true_eq]
  split
  · cases s.rxBuffer sn.value with
    | none => rfl
    | some p =>
      refine congrArg (Option.bind _) (funext fun x => ?_)
      cases intervalLoop fuel x.1 sn.increment high with
      | none => rfl
      | some y => rfl
  · rfl

/-- The numbers from `a` to `z` are in order, seen from the base. -/
def Ascends (base : Fin 1024) (a z : ℕ) : Prop :=
  ∃ c, ∀ n, a ≤ n → n ≤ z → offset base (num n) + c = n + 512

/-- The loop hands over the PDUs received from `a` to `z`. -/
theorem releases_intervalLoop (fuel : ℕ) (sn high : SequenceNumber10)
    (hHolds : Holds s.rxBuffer a received pdu) (hLe : a ≤ z) (hSn : sn.value = num a)
    (hHigh : high.value = num z) (hBase : sn.modulusBase = high.modulusBase)
    (hAscends : Ascends sn.modulusBase a z) (hFar : ∀ n ∈ received, n < a + 1024)
    (hFuel : z - a < fuel) :
    ∃ b, Holds b z received pdu ∧
      Releases (fun s => intervalLoop fuel s sn high) s { s with rxBuffer := b }
        ((released received a z).map pdu) := by
  induction fuel generalizing s a sn with
  | zero => omega
  | succ fuel ih =>
    obtain ⟨c, hSeen⟩ := id hAscends
    have hHere := hSeen a le_rfl hLe
    have hThere := hSeen z hLe le_rfl
    obtain rfl | hLt := hLe.eq_or_lt
    · refine ⟨s.rxBuffer, hHolds, ?_⟩
      rw [released_self]
      refine releases_nil fun r => ?_
      rw [intervalLoop_succ _ _ _ _ hBase, hSn, hHigh, if_neg (Nat.lt_irrefl _)]
    · have hBefore : offset sn.modulusBase sn.value < offset sn.modulusBase high.value := by
        rw [hSn, hHigh]
        omega
      have hNext : sn.increment.value = num (a + 1) := by
        rw [increment, hSn, num_add_one]
      have hOut : a + 1024 ∉ received := fun hMem => absurd (hFar _ hMem) (Nat.lt_irrefl _)
      have hRest : Ascends sn.increment.modulusBase (a + 1) z :=
        ⟨c, fun n hA hZ => hSeen n (by omega) hZ⟩
      by_cases hMem : a ∈ received
      · have hEntry : s.rxBuffer (num a) = some (pdu a) := by
          rw [hHolds a le_rfl (by omega), if_pos hMem]
        obtain ⟨b, hEnd, hReleases⟩ :=
          ih (s := { s with rxBuffer := Function.update s.rxBuffer (num a) none }) _
            (hHolds.remove hOut) hLt hNext hBase hRest
            (fun n hN => (hFar n hN).trans (by omega)) (by omega)
        refine ⟨b, hEnd, ?_⟩
        rw [released_of_mem hLt hMem, List.map_cons]
        refine hReleases.release.of_eq fun r => ?_
        rw [intervalLoop_succ _ _ _ _ hBase, if_pos hBefore, hSn]
        dsimp only
        rw [hEntry]
      · have hEntry : s.rxBuffer (num a) = none := by
          rw [hHolds a le_rfl (by omega), if_neg hMem]
        obtain ⟨b, hEnd, hReleases⟩ := ih _ (hHolds.skip hMem hOut) hLt hNext hBase hRest
          (fun n hN => (hFar n hN).trans (by omega)) (by omega)
        refine ⟨b, hEnd, ?_⟩
        rw [released_of_notMem hMem]
        refine hReleases.of_eq fun r => ?_
        rw [intervalLoop_succ _ _ _ _ hBase, if_pos hBefore, hSn]
        dsimp only
        rw [hEntry]

/-! ## The loop over the keys -/

theorem isInsideReorderingWindow_eq (hUh : s.vrUh.value = num c) (sn : SequenceNumber10) :
    s.isInsideReorderingWindow sn =
      some ({ s with vrUh := ⟨num c, edge c⟩ }, decide (offset (edge c) sn.value < 512)) := by
  have hBase : s.vrUh.setModulusBase (s.vrUh.sub windowSize) = ⟨num c, edge c⟩ := by
    rw [setModulusBase, sub, hUh]
    rfl
  have hTop := offset_num (c := c) (n := c) (by omega) (by omega)
  have hLow : (⟨num c, edge c⟩ : SequenceNumber10).sub windowSize = ⟨edge c, edge c⟩ := rfl
  have hAbove : (⟨edge c, edge c⟩ : SequenceNumber10).le (sn.setModulusBase ⟨edge c, edge c⟩) =
      some true := by
    rw [le_eq (b := edge c) rfl rfl]
    simp
  have hBelow : (sn.setModulusBase ⟨edge c, edge c⟩).lt ⟨num c, edge c⟩ =
      some (decide (offset (edge c) sn.value < 512)) := by
    rw [lt_eq (b := edge c) rfl rfl, show offset (edge c) (num c) = 512 by omega]
    rfl
  unfold isInsideReorderingWindow
  simp only [hBase, hLow, hAbove, hBelow]
  rfl

/-- A held key that the window has left behind. -/
def IsLeft (c : ℕ) (s : LteRlcUm) (v : Fin 1024) : Bool :=
  (s.rxBuffer v).isSome && decide (512 ≤ offset (edge c) v)

theorem outsideLoop_cons (hUh : s.vrUh.value = num c) (v : Fin 1024) (keys : List (Fin 1024)) :
    s.outsideLoop (v :: keys) =
      match s.rxBuffer v with
      | none => s.outsideLoop keys
      | some p =>
        if offset (edge c) v < 512 then some ({ s with vrUh := ⟨num c, edge c⟩ }, [])
        else (LteRlcUm.release { s with vrUh := ⟨num c, edge c⟩ } v p).bind fun x =>
          (outsideLoop x.1 keys).map fun y => (y.1, x.2 ++ y.2) := by
  have hKey : (mk' v).value = v := Fin.ext (Nat.mod_eq_of_lt v.isLt)
  rw [outsideLoop]
  cases s.rxBuffer v with
  | none => rfl
  | some p =>
    dsimp only
    rw [isInsideReorderingWindow_eq hUh, hKey]
    simp only [Option.bind_eq_bind, Option.bind_some, decide_eq_true_eq]
    split
    · rfl
    · refine congrArg (Option.bind _) (funext fun x => ?_)
      cases outsideLoop x.1 keys with
      | none => rfl
      | some y => rfl

/-- The buffer without some keys. -/
def without (b : Fin 1024 → Option UmPdu) (keys : List (Fin 1024)) (v : Fin 1024) :
    Option UmPdu :=
  if v ∈ keys then none else b v

theorem without_cons (v : Fin 1024) (keys : List (Fin 1024)) :
    without (Function.update b v none) keys = without b (v :: keys) := by
  funext w
  unfold without
  by_cases hEq : w = v
  · rw [hEq, Function.update_self, ite_self, if_pos List.mem_cons_self]
  · simp [hEq]

/-- The held keys that the window has left behind come before the others. -/
def LeftFirst (c : ℕ) (s : LteRlcUm) (keys : List (Fin 1024)) : Prop :=
  keys.Pairwise fun v v' => (s.rxBuffer v).isSome → s.IsLeft c v' → s.IsLeft c v

theorem isLeft_update {v w : Fin 1024} {x : SequenceNumber10} (hNe : w ≠ v) :
    IsLeft c { s with vrUh := x, rxBuffer := Function.update s.rxBuffer v none } w =
      s.IsLeft c w := by
  unfold IsLeft
  dsimp only
  rw [Function.update_of_ne hNe]

/-- The loop stops at the first held key inside the window: it hands over all PDUs the window has
left behind if their keys come first. -/
theorem releases_outsideLoop {keys : List (Fin 1024)} (hNodup : keys.Nodup)
    (hUh : s.vrUh.value = num c) (hFirst : s.LeftFirst c keys) :
    ∃ u : SequenceNumber10, u.value = num c ∧
      Releases (fun s => outsideLoop s keys) s
        { s with vrUh := u, rxBuffer := without s.rxBuffer (keys.filter (s.IsLeft c)) }
        ((keys.filter (s.IsLeft c)).filterMap s.rxBuffer) := by
  induction keys generalizing s with
  | nil => exact ⟨s.vrUh, hUh, releases_nil fun r => rfl⟩
  | cons v keys ih =>
    obtain ⟨hNew, hTail⟩ := List.nodup_cons.mp hNodup
    obtain ⟨hHead, hRest⟩ := List.pairwise_cons.mp hFirst
    cases hEntry : s.rxBuffer v with
    | none =>
      obtain ⟨u, hU, hReleases⟩ := ih hTail hUh hRest
      have hNot : ¬ s.IsLeft c v := by simp [IsLeft, hEntry]
      refine ⟨u, hU, ?_⟩
      rw [List.filter_cons_of_neg hNot]
      refine hReleases.of_eq fun r => ?_
      rw [outsideLoop_cons (s := { s with reassembly := r }) hUh]
      dsimp only
      rw [hEntry]
    | some p =>
      by_cases hInside : offset (edge c) v < 512
      · have hNot : ¬ s.IsLeft c v := by simp [IsLeft, hInside]
        have hNone : (v :: keys).filter (s.IsLeft c) = [] := by
          refine List.filter_eq_nil_iff.mpr fun w hW hLeft => ?_
          obtain rfl | hLater := List.mem_cons.mp hW
          · exact hNot hLeft
          · exact hNot (hHead w hLater (hEntry ▸ rfl) hLeft)
        refine ⟨⟨num c, edge c⟩, rfl, ?_⟩
        rw [hNone]
        refine releases_nil fun r => ?_
        rw [outsideLoop_cons (s := { s with reassembly := r }) hUh]
        dsimp only
        rw [hEntry]
        exact if_pos hInside
      · have hLeft : s.IsLeft c v := by
          simp [IsLeft, hEntry, Nat.not_lt.mp hInside]
        have hSame : ∀ w ∈ keys, w ≠ v := fun w hW hEq => hNew (hEq ▸ hW)
        have hFilter : keys.filter (IsLeft c { s with
            vrUh := ⟨num c, edge c⟩, rxBuffer := Function.update s.rxBuffer v none }) =
            keys.filter (s.IsLeft c) :=
          List.filter_congr fun w hW => isLeft_update (hSame w hW)
        have hLater : LeftFirst c { s with
            vrUh := ⟨num c, edge c⟩, rxBuffer := Function.update s.rxBuffer v none } keys := by
          refine hRest.imp_of_mem fun {w w'} hW hW' hImp => ?_
          rw [isLeft_update (hSame w hW), isLeft_update (hSame w' hW')]
          dsimp only
          rw [Function.update_of_ne (hSame w hW)]
          exact hImp
        obtain ⟨u, hU, hReleases⟩ := ih (s := { s with
          vrUh := ⟨num c, edge c⟩, rxBuffer := Function.update s.rxBuffer v none }) hTail rfl hLater
        refine ⟨u, hU, ?_⟩
        have hHanded : (keys.filter (s.IsLeft c)).filterMap (Function.update s.rxBuffer v none) =
            (keys.filter (s.IsLeft c)).filterMap s.rxBuffer := by
          refine List.filterMap_congr fun w hW => ?_
          exact Function.update_of_ne (hSame w (List.mem_of_mem_filter hW)) _ _
        rw [hFilter, hHanded, without_cons] at hReleases
        rw [List.filter_cons_of_pos hLeft, List.filterMap_cons_some hEntry]
        refine (Releases.release (s := { s with vrUh := ⟨num c, edge c⟩ })
          hReleases).of_eq fun r => ?_
        rw [outsideLoop_cons (s := { s with reassembly := r }) hUh]
        dsimp only
        rw [hEntry]
        exact if_neg hInside

/-- Among the held numbers, those that the window below `c` leaves behind have their keys in order,
and before those of the others. -/
def KeysInOrder (received : Finset ℕ) (lo c : ℕ) : Prop :=
  ∀ m ∈ received, lo ≤ m → ∀ n ∈ received, lo ≤ n → n + 512 < c → num m < num n → m < n

variable {lo : ℕ}

theorem isLeft_num (h : Holds s.rxBuffer lo received pdu) (hBelow : ∀ n ∈ received, n < c)
    (hWide : c ≤ lo + 1024) (hLe : lo ≤ n) (hLt : n < lo + 1024) :
    s.IsLeft c (num n) ↔ n ∈ received ∧ n + 512 < c := by
  rw [IsLeft, h.isSome hLe hLt, Bool.and_eq_true, decide_eq_true_iff, decide_eq_true_iff]
  refine and_congr_right fun hMem => ?_
  have hOld := hBelow n hMem
  obtain hIn | hBehind := Nat.lt_or_ge (n + 512) c
  · have hOffset := offset_num_behind (c := c) (by omega) hIn
    omega
  · have hOffset := offset_num hBehind (by omega)
    omega

/-- The walk over the keys meets the numbers in their order. -/
theorem leftFirst_of_keysInOrder (h : Holds s.rxBuffer lo received pdu)
    (hBelow : ∀ n ∈ received, n < c) (hWide : c ≤ lo + 1024) (hKeys : KeysInOrder received lo c) :
    s.LeftFirst c (List.finRange 1024) := by
  refine (List.pairwise_lt_finRange 1024).imp fun {v v'} hLt hHeld hLeft => ?_
  obtain ⟨m, hLo, hHi, rfl⟩ := exists_num lo v
  obtain ⟨n, hLo', hHi', rfl⟩ := exists_num lo v'
  rw [h.isSome hLo hHi, decide_eq_true_iff] at hHeld
  obtain ⟨hMem, hBehind⟩ := (isLeft_num h hBelow hWide hLo' hHi').mp hLeft
  have hOrder := hKeys m hHeld hLo n hMem hLo' hBehind hLt
  exact (isLeft_num h hBelow hWide hLo hHi).mpr ⟨hHeld, by omega⟩

theorem left_eq_released (h : Holds s.rxBuffer lo received pdu) (hBelow : ∀ n ∈ received, n < c)
    (hWide : c ≤ lo + 1024) (hKeys : KeysInOrder received lo c) :
    (List.finRange 1024).filter (s.IsLeft c) =
      (released received lo (max lo (c - 512))).map num := by
  refine List.Pairwise.eq_of_mem_iff ((List.pairwise_lt_finRange 1024).filter _)
    (List.pairwise_map.mpr ?_) fun v => ?_
  · refine released_pairwise.imp_of_mem fun {m n} hM hN hLt => ?_
    obtain ⟨hM, hLo, hHi⟩ := mem_released.mp hM
    obtain ⟨hN, hLo', hHi'⟩ := mem_released.mp hN
    have hNe : num m ≠ num n :=
      mt (num_inj hLo (by omega) hLo' (by omega)).mp hLt.ne
    refine (lt_or_gt_of_ne hNe).resolve_right fun hGt => ?_
    have hOrder := hKeys n hN hLo' m hM hLo (by omega) hGt
    omega
  · rw [List.mem_filter, List.mem_map]
    constructor
    · rintro ⟨-, hLeft⟩
      obtain ⟨n, hLo, hHi, rfl⟩ := exists_num lo v
      obtain ⟨hMem, hBehind⟩ := (isLeft_num h hBelow hWide hLo hHi).mp hLeft
      exact ⟨n, mem_released.mpr ⟨hMem, hLo, by omega⟩, rfl⟩
    · rintro ⟨n, hN, rfl⟩
      obtain ⟨hMem, hLo, hHi⟩ := mem_released.mp hN
      exact ⟨List.mem_finRange _,
        (isLeft_num h hBelow hWide hLo (by omega)).mpr ⟨hMem, by omega⟩⟩

theorem holds_without (h : Holds b lo received pdu) (hLe : lo ≤ z) (hWide : z ≤ lo + 1024)
    (hFar : ∀ n ∈ received, n < lo + 1024) :
    Holds (without b ((released received lo z).map num)) z received pdu := by
  intro n hLo hHi
  have hKeys : ∀ m, lo ≤ m → m < lo + 1024 →
      (num m ∈ (released received lo z).map num ↔ m ∈ received ∧ m < z) := by
    intro m hM hM'
    rw [List.mem_map]
    constructor
    · rintro ⟨k, hK, hEq⟩
      obtain ⟨hMem, hLow, hHigh⟩ := mem_released.mp hK
      cases (num_inj hLow (by omega) hM hM').mp hEq
      exact ⟨hMem, hHigh⟩
    · rintro ⟨hMem, hLt⟩
      exact ⟨m, mem_released.mpr ⟨hMem, hM, hLt⟩, rfl⟩
  unfold LteRlcUm.without
  obtain hNear | hPast := Nat.lt_or_ge n (lo + 1024)
  · rw [if_neg fun hIn => absurd ((hKeys n (by omega) hNear).mp hIn).2 (by omega),
      h n (by omega) hNear]
  · have hSame : num n = num (n - 1024) := by
      apply Fin.ext
      rw [num_val, num_val]
      omega
    rw [if_neg fun hMem => absurd (hFar n hMem) (by omega), hSame]
    split
    · rfl
    · next hNot =>
      rw [h (n - 1024) (by omega) (by omega)]
      refine if_neg fun hMem => hNot ?_
      exact (hKeys (n - 1024) (by omega) (by omega)).mpr ⟨hMem, by omega⟩

/-- The walk hands over what the window has left behind. -/
theorem releases_reassembleOutsideWindow (h : Holds s.rxBuffer lo received pdu)
    (hUh : s.vrUh.value = num c) (hBelow : ∀ n ∈ received, n < c) (hWide : c ≤ lo + 1024)
    (hKeys : KeysInOrder received lo c) :
    ∃ (uh : SequenceNumber10) (b : Fin 1024 → Option UmPdu), uh.value = num c ∧
      Holds b (max lo (c - 512)) received pdu ∧
      Releases reassembleOutsideWindow s { s with vrUh := uh, rxBuffer := b }
        ((released received lo (max lo (c - 512))).map pdu) := by
  obtain ⟨uh, hValue, hReleases⟩ := releases_outsideLoop (List.nodup_finRange 1024) hUh
    (leftFirst_of_keysInOrder h hBelow hWide hKeys)
  rw [left_eq_released h hBelow hWide hKeys] at hReleases
  have hHanded : ((released received lo (max lo (c - 512))).map num).filterMap s.rxBuffer =
      (released received lo (max lo (c - 512))).map pdu := by
    rw [List.filterMap_map, ← List.filterMap_eq_map]
    refine List.filterMap_congr fun n hN => ?_
    obtain ⟨hMem, hLo, hHi⟩ := mem_released.mp hN
    exact (h n hLo (by omega)).trans (if_pos hMem)
  rw [hHanded] at hReleases
  refine ⟨uh, _, hValue, ?_, hReleases⟩
  exact holds_without h (le_max_left _ _) (by omega) fun n hMem => (hBelow n hMem).trans_le hWide

end LteRlcUm

end Bullet.Rlc
