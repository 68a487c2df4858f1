import Bullet.Lib.PartialRun
import Bullet.Phy.NrPhy
import Bullet.Phy.SlotOrder

/-! # Postponing the stored slots

Pushing a slot to the front gives the stored slots consecutive numbers and moves their bursts along.
A burst is written back under the key that carries no stream, and read under the one that does; the
two agree for hardly any slot.
-/

namespace Bullet.Phy

open Lib Lib.Rekey Mac

namespace SfnSf

/-- The key under which a postponed burst is written. -/
def symKey (x : SfnSf) (symStart : UInt8) : UInt64 :=
  (x.getEncodingWithSymStart symStart).getD 0

/-- `n` consecutive slots. -/
def slotsFrom (x : SfnSf) : ℕ → List SfnSf
  | 0 => []
  | n + 1 => x :: slotsFrom x.next n

variable {x y : SfnSf} {n : ℕ}

theorem mem_slotsFrom (hx : x.Admitted) (hy : y ∈ x.slotsFrom n) :
    y = x ∨ y.Normal ∧ y.numerology = x.numerology := by
  induction n generalizing x with
  | zero => cases hy
  | succ n ih =>
    have hNext := (next_spec hx).2
    rcases List.mem_cons.mp hy with rfl | hy
    · exact Or.inl rfl
    · right
      rcases ih (hNext.admitted hx) hy with rfl | ⟨hNormal, hNumerology⟩
      · exact ⟨hNext.normal hx, hNext.numerology⟩
      · exact ⟨hNormal, hNumerology.trans hNext.numerology⟩

theorem position_of_mem_slotsFrom (hx : x.Admitted) (hBelow : x.position + n ≤ x.horizon)
    (hy : y ∈ x.slotsFrom n) : x.position ≤ y.position := by
  induction n generalizing x with
  | zero => cases hy
  | succ n ih =>
    rcases List.mem_cons.mp hy with rfl | hy
    · exact Nat.le_refl _
    have hNext := (next_spec hx).2
    rcases n with _ | n
    · cases hy
    have hPosition := hNext.position (by omega)
    have hHorizon : x.next.horizon = x.horizon := by rw [horizon, hNext.slotsPerFrame_eq, horizon]
    have hLe := ih (hNext.admitted hx) (by omega) hy
    omega

/-- Consecutive slots are in order exactly when the frame number does not wrap. -/
theorem slotsFrom_pairwise_iff (hx : x.Admitted) :
    (x.slotsFrom (n + 1)).Pairwise (fun a b => a.lt b = some true) ↔
      n = 0 ∨ x.position + n < x.horizon := by
  induction n generalizing x with
  | zero => simp [slotsFrom]
  | succ n ih =>
    have hNext := (next_spec hx).2
    have hAdmitted := hNext.admitted hx
    have hHorizon : x.next.horizon = x.horizon := by rw [horizon, hNext.slotsPerFrame_eq, horizon]
    rw [slotsFrom, List.pairwise_cons, ih hAdmitted]
    constructor
    · rintro ⟨hHead, hTail⟩
      have hStep := (lt_next_iff hx).mp (hHead x.next List.mem_cons_self)
      have hPosition := hNext.position hStep
      omega
    · intro hBelow
      have hStep : x.position + 1 < x.horizon := by omega
      have hPosition := hNext.position hStep
      refine ⟨?_, by omega⟩
      intro y hy
      have hNumerology : y.Normal ∧ y.numerology = x.numerology := by
        rcases mem_slotsFrom hAdmitted hy with rfl | ⟨hNormal, hNumerology⟩
        · exact ⟨hNext.normal hx, hNext.numerology⟩
        · exact ⟨hNormal, hNumerology.trans hNext.numerology⟩
      have hLe := position_of_mem_slotsFrom hAdmitted (by omega) hy
      exact lt_of_position_lt hNumerology.2 hNumerology.1 (by omega)

end SfnSf

namespace NrPhy

variable {P : Type}

/-! ## The moves of the loop -/

def allocMoves (currentSfn slotSfn : SfnSf) (alloc : VarTtiAllocInfo) : List (Move UInt64) :=
  if alloc.dci.type = .data then
    (streams alloc.dci).map fun stream =>
      { old := slotSfn.getEncForStreamWithSymStart stream alloc.dci.symStart
        written := currentSfn.symKey alloc.dci.symStart
        read := currentSfn.getEncForStreamWithSymStart stream alloc.dci.symStart }
  else []

def burstMoves : List SlotAllocInfo → SfnSf → List (Move UInt64)
  | [], _ => []
  | info :: infos, currentSfn =>
    info.varTtiAllocInfo.flatMap (allocMoves currentSfn info.sfnSf) ++
      burstMoves infos currentSfn.next

abbrev Bursts (P : Type) := UInt64 → Option (PacketBurst P)

/-- What may be postponed: slots of the PHY's numerology, fewer streams than a byte counts, and
sound bursts. -/
structure Ready (phy : NrPhy P) (newSfnSf : SfnSf) (slotAllocInfo : SlotAllocInfo) : Prop where
  admitted : phy.numerology ≤ 5
  new : newSfnSf.numerology = phy.numerology
  slots : ∀ a ∈ slotAllocInfo :: phy.slotAllocInfo, a.sfnSf.numerology = phy.numerology
  streams : ∀ a ∈ slotAllocInfo :: phy.slotAllocInfo, ∀ alloc ∈ a.varTtiAllocInfo,
    alloc.dci.tbSize.length < 2 ^ 8
  bursts : phy.BurstsSound

def Filled (s : Bursts P × Bursts P) : Prop :=
  ∀ k b, s.1 k = some b → 0 < b.packets.length

def withBursts (phy : NrPhy P) (s : Bursts P × Bursts P) : Moving P :=
  ({ phy with packetBurstMap := s.1 }, s.2)

variable {phy : NrPhy P} {s : Bursts P × Bursts P} {currentSfn slotSfn : SfnSf}

theorem Filled.takeStep {mv : Move UInt64} (h : Filled s) : Filled (takeStep s mv) := by
  intro k b hAt
  obtain ⟨m, t⟩ := s
  cases hOld : m mv.old with
  | none =>
    rw [takeStep_of_none hOld] at hAt
    exact h k b hAt
  | some c =>
    rw [takeStep_of_some hOld] at hAt
    by_cases hKey : k = mv.old
    · simp [erase, hKey] at hAt
    · exact h k b (by simpa [erase, hKey] using hAt)

theorem moveBurst_eq (hPhy : phy.numerology ≤ 5) (hCurrent : currentSfn.numerology = phy.numerology)
    (hSlot : slotSfn.numerology = phy.numerology) (hFilled : Filled s) {symStart stream : UInt8}
    {mv : Move UInt64}
    (hMove : mv = { old := slotSfn.getEncForStreamWithSymStart stream symStart
                    written := currentSfn.symKey symStart
                    read := currentSfn.getEncForStreamWithSymStart stream symStart }) :
    moveBurst currentSfn slotSfn symStart (withBursts phy s) stream =
      some (withBursts phy (takeStep s mv)) := by
  subst hMove
  obtain ⟨m, t⟩ := s
  have hCheck : slotSfn.numerologyIs phy.numerology = some () := by
    simp [SfnSf.numerologyIs, SfnSf.getNumerology, hSlot, hPhy]
  have hKey : currentSfn.getEncodingWithSymStart symStart = some (currentSfn.symKey symStart) := by
    simp [SfnSf.symKey, SfnSf.getEncodingWithSymStart, hCurrent, hPhy]
  cases hAt : m (slotSfn.getEncForStreamWithSymStart stream symStart) with
  | none =>
    rw [takeStep_of_none hAt]
    simp [moveBurst, getPacketBurst, withBursts, hCheck, hAt]
  | some b =>
    have hPackets := hFilled _ b hAt
    rw [takeStep_of_some hAt]
    simp [moveBurst, getPacketBurst, withBursts, hCheck, hAt, hPackets, hKey]

theorem moveAlloc_eq (hPhy : phy.numerology ≤ 5) (hCurrent : currentSfn.numerology = phy.numerology)
    (hSlot : slotSfn.numerology = phy.numerology) (hFilled : Filled s) (alloc : VarTtiAllocInfo) :
    moveAlloc currentSfn slotSfn (withBursts phy s) alloc =
        some (withBursts phy ((allocMoves currentSfn slotSfn alloc).foldl takeStep s)) ∧
      Filled ((allocMoves currentSfn slotSfn alloc).foldl takeStep s) := by
  by_cases hData : alloc.dci.type = .data
  · rw [moveAlloc, if_pos hData, allocMoves, if_pos hData, List.foldl_map]
    apply PartialRun.run_embed (p := Filled)
    · intro x hx stream _
      exact ⟨moveBurst_eq hPhy hCurrent hSlot hx rfl, hx.takeStep⟩
    · exact hFilled
  · rw [moveAlloc, if_neg hData, allocMoves, if_neg hData]
    exact ⟨rfl, hFilled⟩

theorem moveSlots_eq (hPhy : phy.numerology ≤ 5) {infos : List SlotAllocInfo}
    (hSlots : ∀ a ∈ infos, a.sfnSf.numerology = phy.numerology)
    (hCurrent : currentSfn.numerology = phy.numerology) (hFilled : Filled s) :
    moveSlots infos currentSfn (withBursts phy s) =
      some (List.zipWith (fun info sfn => { info with sfnSf := sfn }) infos
          (currentSfn.slotsFrom infos.length),
        withBursts phy ((burstMoves infos currentSfn).foldl takeStep s)) := by
  induction infos generalizing currentSfn s with
  | nil => rfl
  | cons info infos ih =>
    have hAdmitted : currentSfn.Admitted := by rwa [SfnSf.Admitted, hCurrent]
    obtain ⟨hAdd, hNext⟩ := SfnSf.next_spec hAdmitted
    have hSlot := hSlots info List.mem_cons_self
    obtain ⟨hRun, hEnd⟩ := PartialRun.run_embed (p := Filled) (l := info.varTtiAllocInfo)
      (f := withBursts phy)
      (g := fun s alloc => (allocMoves currentSfn info.sfnSf alloc).foldl takeStep s)
      (fun x hx alloc _ => moveAlloc_eq hPhy hCurrent hSlot hx alloc) hFilled
    have hFold : info.varTtiAllocInfo.foldl
        (fun s alloc => (allocMoves currentSfn info.sfnSf alloc).foldl takeStep s) s =
        (info.varTtiAllocInfo.flatMap (allocMoves currentSfn info.sfnSf)).foldl takeStep s := by
      rw [List.foldl_flatMap]
    rw [hFold] at hRun hEnd
    have hRest := ih (fun a ha => hSlots a (List.mem_cons_of_mem info ha))
      (hNext.numerology.trans hCurrent) hEnd
    rw [PartialRun.run] at hRun
    rw [moveSlots, hRun, burstMoves, List.foldl_append]
    simp only [Option.bind_eq_bind, Option.bind_some, hAdd, hRest, List.length_cons,
      SfnSf.slotsFrom, List.zipWith_cons_cons]

variable {newSfnSf : SfnSf} {slotAllocInfo : SlotAllocInfo}

/-- The slots get consecutive numbers, and the bursts are moved to the keys of the loop. -/
theorem pushFrontSlotAllocInfo_eq (h : Ready phy newSfnSf slotAllocInfo) :
    phy.pushFrontSlotAllocInfo newSfnSf slotAllocInfo = some { phy with
      slotAllocInfo := List.zipWith (fun info sfn => { info with sfnSf := sfn })
        (slotAllocInfo :: phy.slotAllocInfo) (newSfnSf.slotsFrom (phy.slotAllocInfo.length + 1))
      packetBurstMap :=
        rekey phy.packetBurstMap (burstMoves (slotAllocInfo :: phy.slotAllocInfo) newSfnSf) } := by
  have hMoved := moveSlots_eq h.admitted h.slots h.new
    (s := (phy.packetBurstMap, fun _ => none)) h.bursts.filled
  rw [List.length_cons] at hMoved
  have hStart : (phy, fun _ => none) = withBursts phy (phy.packetBurstMap, fun _ => none) := rfl
  rw [pushFrontSlotAllocInfo, hStart, hMoved]
  rfl

theorem BurstsSound.pushFrontSlotAllocInfo {phy' : NrPhy P} (h : Ready phy newSfnSf slotAllocInfo)
    (hPush : phy.pushFrontSlotAllocInfo newSfnSf slotAllocInfo = some phy') :
    phy'.BurstsSound := by
  rw [pushFrontSlotAllocInfo_eq h] at hPush
  cases hPush
  have hSource : ∀ k b, rekey phy.packetBurstMap
      (burstMoves (slotAllocInfo :: phy.slotAllocInfo) newSfnSf) k = some b →
      ∃ o, phy.packetBurstMap o = some b := by
    intro k b hAt
    rcases source_of_rekey hAt with ⟨hAt, -⟩ | ⟨o, -, hAt, -⟩
    · exact ⟨k, hAt⟩
    · exact ⟨o, hAt⟩
  constructor
  · intro k b hAt
    obtain ⟨o, hO⟩ := hSource k b hAt
    exact h.bursts.filled o b hO
  · exact fun i j b c hi hj => rekey_distinct (f := PacketBurst.id) h.bursts.distinct hi hj
  · intro k b hAt
    obtain ⟨o, hO⟩ := hSource k b hAt
    exact h.bursts.older o b hO

/-! ## Which bursts stay reachable -/

/-- What `getPacketBurst` returns. -/
def burstAt (phy : NrPhy P) (sfn : SfnSf) (sym streamId : UInt8) : Option (PacketBurst P) :=
  (phy.getPacketBurst sfn sym streamId).bind Prod.fst

/-- Every allocation is still there, the slots are one each and in order, and every burst of a data
allocation's stream is found at the new slot as it was at the old. -/
structure Kept (phy : NrPhy P) (slotAllocInfo : SlotAllocInfo) (phy' : NrPhy P) : Prop where
  allocations : phy'.slotAllocInfo.map (fun a => (a.toSlotAllocInfo, a.type)) =
    (slotAllocInfo :: phy.slotAllocInfo).map (fun a => (a.toSlotAllocInfo, a.type))
  single : (phy'.slotAllocInfo.map SlotAllocInfo.sfnSf).Nodup
  ordered : phy'.slotAllocInfo.Pairwise (fun a b => a.sfnSf.lt b.sfnSf = some true)
  bursts : ∀ p ∈ (slotAllocInfo :: phy.slotAllocInfo).zip phy'.slotAllocInfo,
    ∀ alloc ∈ p.1.varTtiAllocInfo, alloc.dci.type = .data →
      ∀ stream : UInt8, stream.toNat < alloc.dci.tbSize.length →
        ∀ b, phy.burstAt p.1.sfnSf alloc.dci.symStart stream = some b →
          phy'.burstAt p.2.sfnSf alloc.dci.symStart stream = some b

variable {infos : List SlotAllocInfo} {mv : Move UInt64}

theorem mem_burstMoves_iff : mv ∈ burstMoves infos currentSfn ↔
    ∃ p ∈ infos.zip (currentSfn.slotsFrom infos.length), ∃ alloc ∈ p.1.varTtiAllocInfo,
      mv ∈ allocMoves p.2 p.1.sfnSf alloc := by
  induction infos generalizing currentSfn with
  | nil => simp [burstMoves]
  | cons info infos ih =>
    rw [burstMoves, List.mem_append, ih, List.mem_flatMap, List.length_cons, SfnSf.slotsFrom,
      List.zip_cons_cons]
    simp only [List.exists_mem_cons_iff]

theorem mem_streams_iff {dci : DciInfoElementTdma} (h : dci.tbSize.length < 2 ^ 8) {stream : UInt8} :
    stream ∈ streams dci ↔ stream.toNat < dci.tbSize.length := by
  rw [streams, Nat.mod_eq_of_lt h, List.mem_map]
  constructor
  · rintro ⟨i, hi, rfl⟩
    rw [List.mem_range] at hi
    rwa [UInt8.toNat_ofNat_of_lt' (hi.trans h)]
  · intro hStream
    exact ⟨stream.toNat, List.mem_range.mpr hStream, UInt8.ofNat_toNat⟩

theorem burstAt_eq (hPhy : phy.numerology ≤ 5) {sfn : SfnSf} (hSfn : sfn.numerology = phy.numerology)
    (sym stream : UInt8) :
    phy.burstAt sfn sym stream = phy.packetBurstMap (sfn.getEncForStreamWithSymStart stream sym) := by
  have hCheck : sfn.numerologyIs phy.numerology = some () := by
    simp [SfnSf.numerologyIs, SfnSf.getNumerology, hSfn, hPhy]
  cases hAt : phy.packetBurstMap (sfn.getEncForStreamWithSymStart stream sym) with
  | none => simp [burstAt, getPacketBurst, hCheck, hAt]
  | some b => simp [burstAt, getPacketBurst, hCheck, hAt]

theorem zip_renumbered {slots : List SfnSf} :
    infos.zip (List.zipWith (fun info sfn => { info with sfnSf := sfn }) infos slots) =
      (infos.zip slots).map (fun p => (p.1, { p.1 with sfnSf := p.2 })) := by
  induction infos generalizing slots with
  | nil => rfl
  | cons info infos ih =>
    rcases slots with _ | ⟨sfn, slots⟩
    · rfl
    · rw [List.zipWith_cons_cons, List.zip_cons_cons, List.zip_cons_cons, List.map_cons, ih]

theorem renumbered_allocations {slots : List SfnSf} (h : infos.length ≤ slots.length) :
    (List.zipWith (fun info sfn => ({ info with sfnSf := sfn } : SlotAllocInfo)) infos slots).map
      (fun a => (a.toSlotAllocInfo, a.type)) = infos.map (fun a => (a.toSlotAllocInfo, a.type)) := by
  induction infos generalizing slots with
  | nil => rfl
  | cons info infos ih =>
    rcases slots with _ | ⟨sfn, slots⟩
    · cases h
    · rw [List.zipWith_cons_cons, List.map_cons, List.map_cons, ih (Nat.le_of_succ_le_succ h)]

theorem renumbered_slots {slots : List SfnSf} (h : slots.length ≤ infos.length) :
    (List.zipWith (fun info sfn => ({ info with sfnSf := sfn } : SlotAllocInfo)) infos slots).map
      SlotAllocInfo.sfnSf = slots := by
  induction infos generalizing slots with
  | nil => exact (List.eq_nil_of_length_eq_zero (Nat.le_zero.mp h)).symm
  | cons info infos ih =>
    rcases slots with _ | ⟨sfn, slots⟩
    · rfl
    · rw [List.zipWith_cons_cons, List.map_cons, ih (Nat.le_of_succ_le_succ h)]

/-- The bursts stay reachable exactly when the keys of the loop carry them. -/
theorem bursts_kept_iff (h : Ready phy newSfnSf slotAllocInfo) {phy' : NrPhy P}
    (hNew : phy' = { phy with
      slotAllocInfo := List.zipWith (fun info sfn => { info with sfnSf := sfn })
        (slotAllocInfo :: phy.slotAllocInfo) (newSfnSf.slotsFrom (phy.slotAllocInfo.length + 1))
      packetBurstMap :=
        rekey phy.packetBurstMap (burstMoves (slotAllocInfo :: phy.slotAllocInfo) newSfnSf) }) :
    (∀ p ∈ (slotAllocInfo :: phy.slotAllocInfo).zip phy'.slotAllocInfo,
      ∀ alloc ∈ p.1.varTtiAllocInfo, alloc.dci.type = .data →
        ∀ stream : UInt8, stream.toNat < alloc.dci.tbSize.length →
          ∀ b, phy.burstAt p.1.sfnSf alloc.dci.symStart stream = some b →
            phy'.burstAt p.2.sfnSf alloc.dci.symStart stream = some b) ↔
      ∀ mv ∈ burstMoves (slotAllocInfo :: phy.slotAllocInfo) newSfnSf, ∀ b,
        phy.packetBurstMap mv.old = some b → phy'.packetBurstMap mv.read = some b := by
  have hNumerology : phy'.numerology = phy.numerology := by rw [hNew]
  have hPhy' : phy'.numerology ≤ 5 := hNumerology ▸ h.admitted
  have hAdmitted : newSfnSf.Admitted := by
    rw [SfnSf.Admitted, h.new]
    exact h.admitted
  have hSlots : phy'.slotAllocInfo = List.zipWith (fun info sfn => { info with sfnSf := sfn })
      (slotAllocInfo :: phy.slotAllocInfo)
      (newSfnSf.slotsFrom (phy.slotAllocInfo.length + 1)) := by rw [hNew]
  have hSame : ∀ sfn ∈ newSfnSf.slotsFrom (phy.slotAllocInfo.length + 1),
      sfn.numerology = phy'.numerology := by
    intro sfn hSfn
    rw [hNumerology, ← h.new]
    rcases SfnSf.mem_slotsFrom hAdmitted hSfn with rfl | ⟨-, hSfn⟩
    · rfl
    · exact hSfn
  rw [hSlots, zip_renumbered]
  constructor
  · intro hKept mv hMem b hAt
    obtain ⟨p, hp, alloc, hAlloc, hMove⟩ := mem_burstMoves_iff.mp hMem
    have hOld := List.of_mem_zip hp
    rw [allocMoves] at hMove
    split at hMove
    · rename_i hData
      obtain ⟨stream, hStream, rfl⟩ := List.mem_map.mp hMove
      rw [mem_streams_iff (h.streams p.1 hOld.1 alloc hAlloc)] at hStream
      have hRead := hKept _ (List.mem_map_of_mem hp) alloc hAlloc hData stream hStream b
        (by rwa [burstAt_eq h.admitted (h.slots p.1 hOld.1)])
      rwa [burstAt_eq hPhy' (hSame p.2 hOld.2)] at hRead
    · cases hMove
  · intro hMoved p hp alloc hAlloc hData stream hStream b hAt
    obtain ⟨q, hq, rfl⟩ := List.mem_map.mp hp
    have hOld := List.of_mem_zip hq
    rw [burstAt_eq h.admitted (h.slots q.1 hOld.1)] at hAt
    rw [burstAt_eq hPhy' (hSame q.2 hOld.2)]
    apply hMoved { old := _, written := q.2.symKey alloc.dci.symStart, read := _ } _ b hAt
    rw [mem_burstMoves_iff]
    refine ⟨q, hq, alloc, hAlloc, ?_⟩
    rw [allocMoves, if_pos hData]
    apply List.mem_map.mpr
    exact ⟨stream, (mem_streams_iff (h.streams q.1 hOld.1 alloc hAlloc)).mpr hStream, rfl⟩

theorem SfnSf.ne_of_lt {x y : SfnSf} (h : x.lt y = some true) : x ≠ y := by
  rintro rfl
  exact x.not_lt_self h

theorem length_slotsFrom (x : SfnSf) (n : ℕ) : (x.slotsFrom n).length = n := by
  induction n generalizing x with
  | zero => rfl
  | succ n ih => exact congrArg Nat.succ (ih x.next)

/-! ## The two key layouts -/

theorem symKey_toNat {x : SfnSf} (h : x.Admitted) (sym : UInt8) :
    (x.symKey sym).toNat = BitFields.pack (x.symFields sym) := by
  obtain ⟨code, hCode, hNat⟩ := SfnSf.getEncodingWithSymStart_eq (s := sym) h
  rw [SfnSf.symKey, hCode, Option.getD_some, hNat]

/-- Below frame 2^24 a written key has no top byte, and a read key has the numerology there. -/
theorem symKey_ne_streamKey {x y : SfnSf} (hx : x.Admitted) (hFrame : x.frameNum.toNat < 2 ^ 24)
    (hy : 1 ≤ y.numerology.toNat) (sym sym' stream : UInt8) :
    x.symKey sym ≠ y.getEncForStreamWithSymStart stream sym' := by
  intro hKey
  have hWritten : (x.symKey sym).toNat < 2 ^ 56 := by
    rw [symKey_toNat hx, SfnSf.symFields, BitFields.pack_cons fun f hf =>
      SfnSf.symFields_fit (x := x) (s := sym) f (List.mem_cons_of_mem _ hf)]
    have hRest := BitFields.pack_lt fun f hf =>
      SfnSf.symFields_fit (x := x) (s := sym) f (List.mem_cons_of_mem _ hf)
    change x.frameNum.toNat * 2 ^ 32 + _ < 2 ^ 56
    change _ < 2 ^ 32 at hRest
    omega
  have hShared : 1 ≤ y.sharedByte := hy.trans Nat.left_le_or
  have hRead : 2 ^ 56 ≤ (y.getEncForStreamWithSymStart stream sym').toNat := by
    rw [SfnSf.getEncForStreamWithSymStart_eq, SfnSf.streamFields, BitFields.pack_cons fun f hf =>
      SfnSf.streamFields_fit (x := y) (t := stream) (s := sym') f (List.mem_cons_of_mem _ hf)]
    change _ ≤ y.sharedByte * 2 ^ 56 + _
    omega
  rw [hKey] at hWritten
  omega

/-- Where postponing keeps the bursts, the keys carry them. -/
theorem carried_of_kept (h : Ready phy newSfnSf slotAllocInfo) {phy' : NrPhy P}
    (hPush : phy.pushFrontSlotAllocInfo newSfnSf slotAllocInfo = some phy')
    (hKept : Kept phy slotAllocInfo phy') :
    ∀ mv ∈ burstMoves (slotAllocInfo :: phy.slotAllocInfo) newSfnSf,
      (phy.packetBurstMap mv.old).isSome → Carried phy.packetBurstMap
        (burstMoves (slotAllocInfo :: phy.slotAllocInfo) newSfnSf) mv := by
  have hNew : phy' = _ := (Option.some.inj ((pushFrontSlotAllocInfo_eq h).symm.trans hPush)).symm
  have hBursts := (bursts_kept_iff h hNew).mp hKept.bursts
  rw [hNew] at hBursts
  exact (rekey_read_iff fun i j b hi hj => h.bursts.distinct i j b b hi hj rfl).mp hBursts

/-- From numerology 1 on, and before frame 2^24, a postponed burst is always lost. -/
theorem not_kept_of_burst (h : Ready phy newSfnSf slotAllocInfo)
    (hNumerology : 1 ≤ phy.numerology.toNat)
    (hFrames : ∀ sfn ∈ newSfnSf.slotsFrom (phy.slotAllocInfo.length + 1),
      sfn.frameNum.toNat < 2 ^ 24)
    (hBurst : ∃ mv ∈ burstMoves (slotAllocInfo :: phy.slotAllocInfo) newSfnSf,
      (phy.packetBurstMap mv.old).isSome) :
    ¬ ∃ phy', phy.pushFrontSlotAllocInfo newSfnSf slotAllocInfo = some phy' ∧
      Kept phy slotAllocInfo phy' := by
  rintro ⟨phy', hPush, hKept⟩
  obtain ⟨mv, hMem, hSome⟩ := hBurst
  have hFirst := (carried_of_kept h hPush hKept mv hMem hSome).first
  obtain ⟨i, hFind, hWritten⟩ := Option.map_eq_some_iff.mp hFirst
  have hAdmitted : newSfnSf.Admitted := by
    rw [SfnSf.Admitted, h.new]
    exact h.admitted
  have hSlots : ∀ mv ∈ burstMoves (slotAllocInfo :: phy.slotAllocInfo) newSfnSf, ∃ sfn : SfnSf,
      sfn.Admitted ∧ sfn.frameNum.toNat < 2 ^ 24 ∧ 1 ≤ sfn.numerology.toNat ∧
        ∃ sym stream, mv.written = sfn.symKey sym ∧
          mv.read = sfn.getEncForStreamWithSymStart stream sym := by
    intro mv hMem
    obtain ⟨p, hp, alloc, -, hMove⟩ := mem_burstMoves_iff.mp hMem
    have hNew := (List.of_mem_zip hp).2
    have hSame : p.2.numerology = phy.numerology := by
      rw [← h.new]
      rcases SfnSf.mem_slotsFrom hAdmitted hNew with hEq | ⟨-, hEq⟩
      · rw [hEq]
      · exact hEq
    rw [allocMoves] at hMove
    split at hMove
    · obtain ⟨stream, -, rfl⟩ := List.mem_map.mp hMove
      refine ⟨p.2, ?_, hFrames p.2 hNew, by rwa [hSame], _, stream, rfl, rfl⟩
      rw [SfnSf.Admitted, hSame]
      exact h.admitted
    · cases hMove
  obtain ⟨x, hx, hFrame, -, sym, -, hKey, -⟩ := hSlots i (List.mem_of_find?_eq_some hFind)
  obtain ⟨y, -, -, hy, sym', stream, -, hRead⟩ := hSlots mv hMem
  exact symKey_ne_streamKey hx hFrame hy sym sym' stream (hKey ▸ hRead ▸ hWritten)

/-- Postponing keeps everything exactly when no slot wraps and the keys carry every burst. -/
theorem kept_iff (h : Ready phy newSfnSf slotAllocInfo) :
    (∃ phy', phy.pushFrontSlotAllocInfo newSfnSf slotAllocInfo = some phy' ∧
        Kept phy slotAllocInfo phy') ↔
      (phy.slotAllocInfo = [] ∨
          newSfnSf.position + phy.slotAllocInfo.length < newSfnSf.horizon) ∧
        ∀ mv ∈ burstMoves (slotAllocInfo :: phy.slotAllocInfo) newSfnSf,
          (phy.packetBurstMap mv.old).isSome → Carried phy.packetBurstMap
            (burstMoves (slotAllocInfo :: phy.slotAllocInfo) newSfnSf) mv := by
  have hAdmitted : newSfnSf.Admitted := by
    rw [SfnSf.Admitted, h.new]
    exact h.admitted
  have hLength : (slotAllocInfo :: phy.slotAllocInfo).length =
      (newSfnSf.slotsFrom (phy.slotAllocInfo.length + 1)).length := (length_slotsFrom ..).symm
  have hOrder : ∀ infos : List SlotAllocInfo, infos.Pairwise (fun a b => a.sfnSf.lt b.sfnSf = some true) ↔
      (infos.map SlotAllocInfo.sfnSf).Pairwise (fun a b => a.lt b = some true) :=
    fun infos => by rw [List.pairwise_map]
  constructor
  · rintro ⟨phy', hPush, hKept⟩
    refine ⟨?_, carried_of_kept h hPush hKept⟩
    have hOrdered := hKept.ordered
    rw [pushFrontSlotAllocInfo_eq h, Option.some.injEq] at hPush
    rw [hOrder, ← hPush, renumbered_slots hLength.ge,
      SfnSf.slotsFrom_pairwise_iff hAdmitted] at hOrdered
    exact hOrdered.imp_left List.eq_nil_of_length_eq_zero
  · rintro ⟨hBelow, hCarried⟩
    refine ⟨_, pushFrontSlotAllocInfo_eq h, ?_⟩
    have hSorted : (newSfnSf.slotsFrom (phy.slotAllocInfo.length + 1)).Pairwise
        (fun a b => a.lt b = some true) := by
      rw [SfnSf.slotsFrom_pairwise_iff hAdmitted]
      exact hBelow.imp_left (congrArg List.length)
    constructor
    · exact renumbered_allocations hLength.le
    · rw [renumbered_slots hLength.ge]
      exact hSorted.imp SfnSf.ne_of_lt
    · rw [hOrder, renumbered_slots hLength.ge]
      exact hSorted
    · rw [bursts_kept_iff h rfl]
      exact fun mv hMem b hAt => rekey_read_of_carried hCarried hMem hAt

/-- A slot whose only data allocation starts at `sym` and has `streams` streams. -/
def dataSlot (sfn : SfnSf) (sym : UInt8) (streams : ℕ) : SlotAllocInfo where
  sfnSf := sfn
  type := .dl
  varTtiAllocInfo := [.ofDci {
    type := .data, symStart := sym, numSym := 10, tbSize := List.replicate streams 100 }]

/-- A PHY of numerology 1 with one burst. -/
def oneBurst (sfn : SfnSf) (sym stream : UInt8) : NrPhy Unit where
  numerology := 1
  packetBurstMap := fun k =>
    if k = sfn.getEncForStreamWithSymStart stream sym then some { id := 0, packets := [()] } else none
  created := 1

theorem ready_oneBurst {sfn new : SfnSf} (hSfn : sfn.numerology = 1) (hNew : new.numerology = 1)
    (sym stream : UInt8) {streams : ℕ} (hStreams : streams < 2 ^ 8) :
    Ready (oneBurst sfn sym stream) new (dataSlot sfn sym streams) := by
  have hBurst : ∀ k b, (oneBurst sfn sym stream).packetBurstMap k = some b →
      k = sfn.getEncForStreamWithSymStart stream sym ∧ b = { id := 0, packets := [()] } := by
    intro k b hAt
    simp only [oneBurst] at hAt
    split at hAt
    · exact ⟨‹_›, (Option.some.inj hAt).symm⟩
    · cases hAt
  refine ⟨(by decide : (1 : UInt8) ≤ 5), hNew, ?_, ?_, ?_, ?_, ?_⟩
  · intro a ha
    rw [List.mem_singleton.mp ha]
    exact hSfn
  · intro a ha alloc hAlloc
    rw [List.mem_singleton.mp ha] at hAlloc
    rw [List.mem_singleton.mp hAlloc]
    exact (List.length_replicate ..).trans_lt hStreams
  · intro k b hAt
    rw [(hBurst k b hAt).2]
    exact Nat.one_pos
  · intro i j b c hi hj _
    exact (hBurst i b hi).1.trans (hBurst j c hj).1.symm
  · intro k b hAt
    rw [(hBurst k b hAt).2]
    exact Nat.one_pos

/-- In the first slot of frame 2^24 the two keys of stream 1 at symbol 1 agree. -/
theorem kept_at_agreeing_keys : ∃ phy',
    (oneBurst ⟨16777215, 9, 1, 1⟩ 1 1).pushFrontSlotAllocInfo ⟨16777216, 0, 0, 1⟩
      (dataSlot ⟨16777215, 9, 1, 1⟩ 1 2) = some phy' ∧
    Kept (oneBurst ⟨16777215, 9, 1, 1⟩ 1 1) (dataSlot ⟨16777215, 9, 1, 1⟩ 1 2) phy' := by
  apply (kept_iff (ready_oneBurst rfl rfl 1 1 (by decide))).mpr
  refine ⟨Or.inl rfl, ?_⟩
  have hMoves : burstMoves [dataSlot ⟨16777215, 9, 1, 1⟩ 1 2] ⟨16777216, 0, 0, 1⟩ =
      [⟨0xffffff0900010100, 0x0100000000000101, 0x0100000000000100⟩,
        ⟨0xffffff0900010101, 0x0100000000000101, 0x0100000000000101⟩] := by decide
  have hMap : ∀ k, (oneBurst ⟨16777215, 9, 1, 1⟩ 1 1).packetBurstMap k =
      if k = 0xffffff0900010101 then some { id := 0, packets := [()] } else none := fun k => rfl
  intro mv hMem hSome
  change mv ∈ burstMoves [dataSlot ⟨16777215, 9, 1, 1⟩ 1 2] ⟨16777216, 0, 0, 1⟩ at hMem
  change Carried _ (burstMoves [dataSlot ⟨16777215, 9, 1, 1⟩ 1 2] ⟨16777216, 0, 0, 1⟩) mv
  rw [hMoves] at hMem ⊢
  rw [hMap] at hSome
  have hMv : mv = ⟨0xffffff0900010101, 0x0100000000000101, 0x0100000000000101⟩ := by
    simp only [List.mem_cons, List.not_mem_nil, or_false] at hMem
    rcases hMem with rfl | rfl
    · exact absurd hSome (by decide)
    · rfl
  subst hMv
  refine ⟨Or.inl (by decide), by decide, ?_⟩
  intro i hi hISome _
  rw [hMap] at hISome
  by_contra hOther
  rw [if_neg hOther] at hISome
  cases hISome

theorem bursts_not_kept : ¬ ∀ (phy : NrPhy Unit) (newSfnSf : SfnSf) (slotAllocInfo : SlotAllocInfo),
    Ready phy newSfnSf slotAllocInfo →
      ∃ phy', phy.pushFrontSlotAllocInfo newSfnSf slotAllocInfo = some phy' ∧
        Kept phy slotAllocInfo phy' := by
  intro hAll
  have hReady : Ready (oneBurst ⟨3, 0, 0, 1⟩ 1 0) ⟨3, 0, 1, 1⟩ (dataSlot ⟨3, 0, 0, 1⟩ 1 1) :=
    ready_oneBurst rfl rfl 1 0 (by decide)
  refine not_kept_of_burst hReady (by decide) ?_ ?_ (hAll _ _ _ hReady)
  · intro sfn hSfn
    rw [List.mem_singleton.mp hSfn]
    decide
  · exact ⟨⟨0x0100030000000100, 0x0000000300010101, 0x0100030000010100⟩, by decide, by decide⟩

end NrPhy
end Bullet.Phy
