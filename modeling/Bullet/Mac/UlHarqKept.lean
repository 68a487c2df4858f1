import Mathlib.Data.UInt
import Bullet.Mac.UlHarq

/-! # Which UL NACKs survive a slot

Every feedback that the loop examines is retransmitted or buffered. One that comes after the last
symbol is given away is neither.
-/

namespace Bullet.Mac

open Lib.Blocks Lib.FirstFit

def UeMap.ulGrant (ueMap : UeMap) (key : HarqKey) : Option DciInfoElementTdma :=
  (ueMap.ulProcess key).bind HarqProcess.dciElement

/-- The symbols that the last grant of the process took. -/
def UeMap.ulDemand (ueMap : UeMap) (h : UlHarqInfo) : ℕ :=
  ((ueMap.ulGrant h.key).map fun dci => dci.numSym.toNat).getD 0

theorem ulProcess_putUlHarq (ueMap : UeMap) (key : HarqKey) (ue : NrMacSchedulerUeInfo)
    (p : HarqProcess) : (ueMap.putUlHarq key ue p).ulProcess key = some p := by
  rw [UeMap.ulProcess, UeMap.putUlHarq, Function.update_self, Option.bind_some]
  exact Function.update_self _ _ _

theorem ulProcess_putUlHarq_of_ne {ueMap : UeMap} {key key' : HarqKey}
    {ue ue' : NrMacSchedulerUeInfo} (p : HarqProcess) (hUe : ueMap key.rnti = some ue)
    (hHarq : ue'.ulHarq = ue.ulHarq) (hNe : key' ≠ key) :
    (ueMap.putUlHarq key ue' p).ulProcess key' = ueMap.ulProcess key' := by
  rw [UeMap.ulProcess, UeMap.ulProcess, UeMap.putUlHarq]
  rcases eq_or_ne key'.rnti key.rnti with hRnti | hRnti
  · have hId : key'.harqProcessId ≠ key.harqProcessId := by
      intro hId
      apply hNe
      cases key
      cases key'
      cases hRnti
      cases hId
      rfl
    rw [hRnti, Function.update_self, hUe, Option.bind_some, Option.bind_some, ← hHarq]
    exact Function.update_of_ne hId _ _
  · rw [Function.update_of_ne hRnti]

theorem Nacked.congr {ueMap ueMap' : UeMap} {h : UlHarqInfo} {dci : DciInfoElementTdma}
    (hNack : Nacked ueMap h dci) (hEq : ueMap'.ulProcess h.key = ueMap.ulProcess h.key) :
    Nacked ueMap' h dci where
  notOk := hNack.notOk
  process := by
    rw [hEq]
    exact hNack.process
  format := hNack.format
  rv := hNack.rv

theorem Nacked.ulGrant {ueMap : UeMap} {h : UlHarqInfo} {dci : DciInfoElementTdma}
    (hNack : Nacked ueMap h dci) : ueMap.ulGrant h.key = some dci := by
  obtain ⟨p, hProcess, -, hDci, -⟩ := hNack.process
  rw [UeMap.ulGrant, hProcess, Option.bind_some, hDci]

theorem Nacked.ulDemand {ueMap : UeMap} {h : UlHarqInfo} {dci : DciInfoElementTdma}
    (hNack : Nacked ueMap h dci) : ueMap.ulDemand h = dci.numSym.toNat := by
  rw [UeMap.ulDemand, hNack.ulGrant]
  rfl

namespace UlHarqState

/-- The symbols left lie below the starting point, and counting the used ones cannot overflow. -/
structure Sound (s : UlHarqState) : Prop where
  room : s.symAvail.toNat ≤ s.startingPoint.sym.toNat
  count : s.symUsed.toNat + s.symAvail.toNat < 2 ^ 8

/-- From `s` the loop examined the feedbacks `l`: those in `scheduled` got the retransmissions
`retx`, the others were buffered. -/
structure Walked (s : UlHarqState) (l : List UlHarqInfo) (r : UlHarqState)
    (scheduled buffered : List UlHarqInfo) (retx : List DciInfoElementTdma) : Prop where
  partition : (scheduled ++ buffered).Perm l
  repeats : List.Forall₂ (fun h dci => ∃ old, s.ueMap.ulGrant h.key = some old ∧ UlRetx h old dci)
    scheduled retx
  allocated : r.slotAlloc.varTtiAllocInfo =
    (retx.map VarTtiAllocInfo.ofDci).reverse ++ s.slotAlloc.varTtiAllocInfo
  buffers : r.ulHarqToRetransmit = s.ulHarqToRetransmit ++ buffered
  stacked : StackedBelow s.startingPoint.sym.toNat (retx.map DciInfoElementTdma.symbols)
  sym : r.startingPoint.sym.toNat + total (retx.map DciInfoElementTdma.symbols) =
    s.startingPoint.sym.toNat
  rbg : r.startingPoint.rbg = s.startingPoint.rbg
  symUsed : r.symUsed.toNat = s.symUsed.toNat + total (retx.map DciInfoElementTdma.symbols)
  symAvail : r.symAvail.toNat + total (retx.map DciInfoElementTdma.symbols) = s.symAvail.toNat
  firstFit : r.symAvail.toNat = remaining s.symAvail.toNat (l.map s.ueMap.ulDemand)
  frame : ∀ key ∉ l.map UlHarqInfo.key, r.ueMap.ulProcess key = s.ueMap.ulProcess key

theorem Walked.refl (s : UlHarqState) : Walked s [] s [] [] [] where
  partition := List.Perm.refl _
  repeats := List.Forall₂.nil
  allocated := rfl
  buffers := (List.append_nil _).symm
  stacked := trivial
  sym := rfl
  rbg := rfl
  symUsed := rfl
  symAvail := rfl
  firstFit := rfl
  frame := fun _ _ => rfl

theorem Walked.trans {s r t : UlHarqState} {l m scheduled buffered scheduled' buffered' :
    List UlHarqInfo} {retx retx' : List DciInfoElementTdma}
    (h : Walked s l r scheduled buffered retx) (h' : Walked r m t scheduled' buffered' retx')
    (hApart : (m.map UlHarqInfo.key).Disjoint (l.map UlHarqInfo.key)) :
    Walked s (l ++ m) t (scheduled ++ scheduled') (buffered ++ buffered') (retx ++ retx') := by
  have hGrant : ∀ f ∈ m, r.ueMap.ulGrant f.key = s.ueMap.ulGrant f.key := fun f hf =>
    congrArg (Option.bind · _) (h.frame f.key (hApart (List.mem_map_of_mem hf)))
  have hDemand : m.map r.ueMap.ulDemand = m.map s.ueMap.ulDemand := by
    refine List.map_congr_left fun f hf => ?_
    rw [UeMap.ulDemand, UeMap.ulDemand, hGrant f hf]
  refine ⟨?_, ?_, ?_, ?_, ?_, ?_, h'.rbg.trans h.rbg, ?_, ?_, ?_, ?_⟩
  · exact append_perm_append h.partition h'.partition
  · have hMem : ∀ f ∈ scheduled', f ∈ m := fun f hf =>
      h'.partition.subset (List.mem_append_left _ hf)
    refine List.rel_append h.repeats (((List.forall₂_and_left _ _).mpr ⟨hMem, h'.repeats⟩).imp ?_)
    rintro f dci ⟨hf, old, hOld, hRetx⟩
    exact ⟨old, (hGrant f hf).symm.trans hOld, hRetx⟩
  · rw [h'.allocated, h.allocated, List.map_append, List.reverse_append, List.append_assoc]
  · rw [h'.buffers, h.buffers, List.append_assoc]
  · have hStacked := h.stacked
    rw [← h.sym] at hStacked
    rw [List.map_append, ← h.sym]
    exact hStacked.append h'.stacked
  · rw [← h.sym, ← h'.sym, List.map_append, total_append]
    omega
  · rw [h'.symUsed, h.symUsed, List.map_append, total_append, Nat.add_assoc]
  · rw [← h.symAvail, ← h'.symAvail, List.map_append, total_append]
    omega
  · rw [h'.firstFit, h.firstFit, hDemand, List.map_append, remaining_append]
  · intro key hKey
    rw [List.map_append, List.mem_append, not_or] at hKey
    rw [h'.frame key hKey.2, h.frame key hKey.1]

theorem Walked.sound {s r : UlHarqState} {l scheduled buffered : List UlHarqInfo}
    {retx : List DciInfoElementTdma} (h : Walked s l r scheduled buffered retx) (hs : s.Sound) :
    r.Sound := by
  have hSym := h.sym
  have hUsed := h.symUsed
  have hAvail := h.symAvail
  obtain ⟨hRoom, hCount⟩ := hs
  exact ⟨by omega, by omega⟩

theorem step_of_nacked (bw : UInt16) {s : UlHarqState} {h : UlHarqInfo} {dci : DciInfoElementTdma}
    (hNack : Nacked s.ueMap h dci) : ∃ ue p rv, s.ueMap h.key.rnti = some ue ∧
      dci.rv[0]? = some rv ∧ rv < 4 ∧
      step bw s h = some (if dci.numSym ≤ s.symAvail then s.sent bw h ue p dci rv
        else s.held h ue p) := by
  obtain ⟨p, hProcess, hStatus, hDci, hStreams⟩ := hNack.process
  obtain ⟨rv, hRv, hLt⟩ := hNack.rv
  rw [UeMap.ulProcess] at hProcess
  obtain ⟨ue, hUe, hHarq⟩ := Option.bind_eq_some_iff.mp hProcess
  have hUe' : s.ueMap h.rnti = some ue := hUe
  have hHarq' : ue.ulHarq h.harqProcessId = some p := hHarq
  refine ⟨ue, p, rv, hUe, hRv, hLt, ?_⟩
  rw [step, hNack.notOk, if_neg Bool.false_ne_true, hUe', Option.bind_eq_bind, Option.bind_some,
    hHarq', Option.bind_eq_bind, Option.bind_some, if_neg (not_not_intro hStatus), hDci,
    Option.bind_eq_bind, Option.bind_some]
  by_cases hFit : dci.numSym ≤ s.symAvail
  · rw [if_pos hFit, if_pos hFit, if_neg (not_or.mpr ⟨not_not_intro hNack.format,
      not_not_intro hStreams⟩), hRv]
    rfl
  · rw [if_neg hFit, if_neg hFit]
    rfl

/-- One feedback is either retransmitted right below the starting point or buffered. -/
theorem step_walked (bw : UInt16) {s : UlHarqState} {h : UlHarqInfo} {dci : DciInfoElementTdma}
    (hNack : Nacked s.ueMap h dci) (hs : s.Sound) :
    ∃ r scheduled buffered retx, step bw s h = some r ∧
      Walked s [h] r scheduled buffered retx := by
  obtain ⟨ue, p, rv, hUe, hRv, hLt, hStep⟩ := step_of_nacked bw hNack
  obtain ⟨hRoom, hCount⟩ := hs
  have hFrame : ∀ key ∉ [h].map UlHarqInfo.key, ∀ ue' q, ue'.ulHarq = ue.ulHarq →
      (s.ueMap.putUlHarq h.key ue' q).ulProcess key = s.ueMap.ulProcess key :=
    fun key hKey ue' q hHarq => ulProcess_putUlHarq_of_ne q hUe hHarq
      fun hEq => hKey (List.mem_singleton.mpr hEq)
  rw [hStep]
  split
  · rename_i hFit
    have hFitNat : dci.numSym.toNat ≤ s.symAvail.toNat := UInt8.le_iff_toNat_le.mp hFit
    have hSymFit : dci.numSym ≤ s.startingPoint.sym :=
      UInt8.le_iff_toNat_le.mpr (hFitNat.trans hRoom)
    have hSym := UInt8.toNat_sub_of_le _ _ hSymFit
    have hAvail := UInt8.toNat_sub_of_le _ _ hFit
    have hUsed := UInt8.toNat_add s.symUsed dci.numSym
    have hRvNat : (rv + 1).toNat = rv.toNat + 1 := by
      have hRvLt : rv.toNat < 4 := hLt
      rw [UInt8.toNat_add, UInt8.toNat_one]
      omega
    refine ⟨_, [h], [], [s.retxDci h.harqProcessId dci rv], rfl, List.Perm.refl _,
      List.Forall₂.cons ⟨dci, hNack.ulGrant, ?_⟩ List.Forall₂.nil, rfl,
      (List.append_nil _).symm, ⟨?_, trivial⟩, ?_, rfl, ?_, ?_, ?_,
      fun key hKey => hFrame key hKey _ _ rfl⟩
    · exact ⟨rfl, rfl, rfl, rfl, rfl, rfl, rfl, rv, rv + 1, hRv, rfl, hRvNat⟩
    · change (s.startingPoint.sym - dci.numSym).toNat + dci.numSym.toNat = _
      omega
    · change (s.startingPoint.sym - dci.numSym).toNat + (dci.numSym.toNat + 0) = _
      omega
    · change (s.symUsed + dci.numSym).toNat = s.symUsed.toNat + (dci.numSym.toNat + 0)
      omega
    · change (s.symAvail - dci.numSym).toNat + (dci.numSym.toNat + 0) = _
      omega
    · change (s.symAvail - dci.numSym).toNat = afterDemand _ _
      rw [hNack.ulDemand, afterDemand, if_pos hFitNat]
      exact hAvail
  · rename_i hFit
    refine ⟨_, [], [h], [], rfl, List.Perm.refl _, List.Forall₂.nil, rfl, rfl, trivial, rfl, rfl,
      rfl, rfl, ?_, fun key hKey => hFrame key hKey _ _ rfl⟩
    change s.symAvail.toNat = afterDemand _ _
    rw [hNack.ulDemand, afterDemand, if_neg fun hLe => hFit (UInt8.le_iff_toNat_le.mpr hLe)]

theorem loop_walked (bw : UInt16) {s : UlHarqState} {l : List UlHarqInfo} (hs : s.Sound)
    (hNacked : ∀ h ∈ l, ∃ dci, Nacked s.ueMap h dci) (hNodup : (l.map UlHarqInfo.key).Nodup) :
    ∃ r scheduled buffered retx, loop bw s l = some r ∧
      Walked s (l.take (examined s.symAvail.toNat (l.map s.ueMap.ulDemand))) r
        scheduled buffered retx := by
  induction l generalizing s with
  | nil => exact ⟨s, [], [], [], rfl, Walked.refl s⟩
  | cons h l ih =>
    rcases Nat.eq_zero_or_pos s.symAvail.toNat with hZero | hPos
    · refine ⟨s, [], [], [], if_pos (UInt8.toNat_inj.mp hZero), ?_⟩
      rw [List.map_cons, examined, if_pos hZero]
      exact Walked.refl s
    · have hNe : s.symAvail ≠ 0 := fun hEq => hPos.ne' (congrArg UInt8.toNat hEq)
      obtain ⟨dci, hNack⟩ := hNacked h List.mem_cons_self
      obtain ⟨r, scheduled, buffered, retx, hStep, hWalked⟩ := step_walked bw hNack hs
      rw [List.map_cons, List.nodup_cons] at hNodup
      have hFrame : ∀ f ∈ l, r.ueMap.ulProcess f.key = s.ueMap.ulProcess f.key := by
        intro f hf
        refine hWalked.frame f.key fun hMem => hNodup.1 ?_
        exact List.mem_singleton.mp hMem ▸ List.mem_map_of_mem hf
      have hNacked' : ∀ f ∈ l, ∃ dci, Nacked r.ueMap f dci := by
        intro f hf
        obtain ⟨dci, hNack⟩ := hNacked f (List.mem_cons_of_mem _ hf)
        exact ⟨dci, hNack.congr (hFrame f hf)⟩
      obtain ⟨t, scheduled', buffered', retx', hLoop, hRest⟩ :=
        ih (hWalked.sound hs) hNacked' hNodup.2
      have hDemand : l.map r.ueMap.ulDemand = l.map s.ueMap.ulDemand := by
        refine List.map_congr_left fun f hf => ?_
        rw [UeMap.ulDemand, UeMap.ulDemand, UeMap.ulGrant, UeMap.ulGrant, hFrame f hf]
      rw [hDemand, hWalked.firstFit] at hRest
      refine ⟨t, scheduled ++ scheduled', buffered ++ buffered', retx ++ retx', ?_, ?_⟩
      · rw [loop, if_neg hNe, hStep]
        exact hLoop
      · rw [List.map_cons, examined_of_pos hPos, List.take_succ_cons]
        refine hWalked.trans hRest ?_
        intro key hKey hHead
        obtain ⟨f, hf, rfl⟩ := List.mem_map.mp hKey
        refine hNodup.1 ?_
        exact List.mem_singleton.mp hHead ▸ List.mem_map_of_mem (List.mem_of_mem_take hf)

end UlHarqState

open UlHarqState

/-- A call of `ScheduleUlHarq` as the slot scheduler makes it, past the assertions on the
processes. -/
structure UlHarqCall (s : UlHarqState) (feedback : List UlHarqInfo) : Prop where
  rbg : s.startingPoint.rbg = 0
  room : s.symAvail ≤ s.startingPoint.sym
  nacked : ∀ h ∈ feedback, ∃ dci, Nacked s.ueMap h dci
  nodup : (feedback.map UlHarqInfo.key).Nodup

/-- Each feedback is retransmitted in this slot or buffered for a later one. -/
structure UlHarqKept (s : UlHarqState) (feedback : List UlHarqInfo) (r : UlHarqState)
    (scheduled buffered : List UlHarqInfo) (retx : List DciInfoElementTdma) : Prop where
  partition : (scheduled ++ buffered).Perm feedback
  once : (scheduled.map UlHarqInfo.key).Disjoint (buffered.map UlHarqInfo.key)
  repeats : List.Forall₂ (fun h dci => ∃ old, s.ueMap.ulGrant h.key = some old ∧ UlRetx h old dci)
    scheduled retx
  allocated : r.slotAlloc.varTtiAllocInfo =
    (retx.map VarTtiAllocInfo.ofDci).reverse ++ s.slotAlloc.varTtiAllocInfo
  buffers : r.ulHarqToRetransmit = s.ulHarqToRetransmit ++ buffered
  inside : ∀ dci ∈ retx, dci.symbols.Inside
    (s.startingPoint.sym.toNat - s.symAvail.toNat) s.startingPoint.sym.toNat
  apart : (retx.map DciInfoElementTdma.symbols).Pairwise Block.Apart
  symUsed : total (retx.map DciInfoElementTdma.symbols) = r.symUsed.toNat
  budget : r.symUsed ≤ s.symAvail

/-- First fit of the grants before the last feedback leaves a symbol, and the 16-bit index of the
loop does not start over. -/
def EveryoneExamined (s : UlHarqState) (feedback : List UlHarqInfo) : Prop :=
  (feedback = [] ∨ 0 < remaining s.symAvail.toNat (feedback.dropLast.map s.ueMap.ulDemand)) ∧
  (2 ^ 16 ≤ feedback.length → feedback.length = 2 ^ 16 ∧
    remaining s.symAvail.toNat (feedback.map s.ueMap.ulDemand) = 0)

theorem everyoneExamined_iff (s : UlHarqState) (feedback : List UlHarqInfo) :
    EveryoneExamined s feedback ↔
      examined s.symAvail.toNat (feedback.map s.ueMap.ulDemand) = feedback.length ∧
      (2 ^ 16 ≤ feedback.length → feedback.length = 2 ^ 16 ∧
        remaining s.symAvail.toNat (feedback.map s.ueMap.ulDemand) = 0) := by
  have hExamined := examined_eq_length_iff (b := s.symAvail.toNat)
    (l := feedback.map s.ueMap.ulDemand)
  rw [List.length_map, List.map_eq_nil_iff, ← List.map_dropLast] at hExamined
  rw [EveryoneExamined, hExamined]

theorem UlHarqKept.lengths {s r : UlHarqState} {feedback scheduled buffered : List UlHarqInfo}
    {retx : List DciInfoElementTdma} (h : UlHarqKept s feedback r scheduled buffered retx) :
    r.slotAlloc.varTtiAllocInfo.length + r.ulHarqToRetransmit.length =
      s.slotAlloc.varTtiAllocInfo.length + s.ulHarqToRetransmit.length + feedback.length := by
  have hPartition := h.partition.length_eq
  have hRepeats := h.repeats.length_eq
  rw [h.allocated, h.buffers, List.length_append, List.length_append, List.length_reverse,
    List.length_map]
  rw [List.length_append] at hPartition
  omega

theorem UlHarqState.Walked.lengths {s r : UlHarqState} {l scheduled buffered : List UlHarqInfo}
    {retx : List DciInfoElementTdma} (h : Walked s l r scheduled buffered retx) :
    r.slotAlloc.varTtiAllocInfo.length + r.ulHarqToRetransmit.length =
      s.slotAlloc.varTtiAllocInfo.length + s.ulHarqToRetransmit.length + l.length := by
  have hPartition := h.partition.length_eq
  have hRepeats := h.repeats.length_eq
  rw [h.allocated, h.buffers, List.length_append, List.length_append, List.length_reverse,
    List.length_map]
  rw [List.length_append] at hPartition
  omega

theorem UlHarqState.Walked.kept {s r : UlHarqState} {feedback scheduled buffered : List UlHarqInfo}
    {retx : List DciInfoElementTdma} (h : Walked { s with symUsed := 0 } feedback r
      scheduled buffered retx) (hNodup : (feedback.map UlHarqInfo.key).Nodup) :
    UlHarqKept s feedback r scheduled buffered retx := by
  have hUsed : r.symUsed.toNat = total (retx.map DciInfoElementTdma.symbols) :=
    h.symUsed.trans (Nat.zero_add _)
  have hAvail : r.symAvail.toNat + total (retx.map DciInfoElementTdma.symbols) =
    s.symAvail.toNat := h.symAvail
  refine ⟨h.partition, ?_, h.repeats, h.allocated, h.buffers, ?_, h.stacked.pairwise_apart,
    hUsed.symm, ?_⟩
  · have hKeys := (h.partition.map UlHarqInfo.key).nodup_iff.mpr hNodup
    rw [List.map_append] at hKeys
    exact List.disjoint_of_nodup_append hKeys
  · intro dci hDci
    obtain ⟨hLow, hHigh⟩ := h.stacked.inside _ (List.mem_map_of_mem hDci)
    refine ⟨le_trans ?_ hLow, hHigh⟩
    change s.startingPoint.sym.toNat - _ ≤ s.startingPoint.sym.toNat - _
    omega
  · rw [UInt8.le_iff_toNat_le]
    omega

theorem UlHarqCall.sound {s : UlHarqState} {feedback : List UlHarqInfo}
    (h : UlHarqCall s feedback) : Sound { s with symUsed := 0 } where
  room := UInt8.le_iff_toNat_le.mp h.room
  count := by
    change 0 + s.symAvail.toNat < 2 ^ 8
    rw [Nat.zero_add]
    exact s.symAvail.toNat_lt

/-- No NACK is lost exactly when every feedback is examined. -/
theorem ulHarqKept_iff (bw : UInt16) {s : UlHarqState} {feedback : List UlHarqInfo}
    (hCall : UlHarqCall s feedback) :
    (∃ r scheduled buffered retx, scheduleUlHarq bw s feedback = some r ∧
      UlHarqKept s feedback r scheduled buffered retx) ↔ EveryoneExamined s feedback := by
  have hNodup : ((feedback.take (2 ^ 16)).map UlHarqInfo.key).Nodup :=
    hCall.nodup.sublist ((List.take_sublist _ _).map _)
  obtain ⟨t, scheduled, buffered, retx, hLoop, hWalked⟩ := loop_walked bw hCall.sound
    (fun h hh => hCall.nacked h (List.mem_of_mem_take hh)) hNodup
  change Walked _ (List.take (examined s.symAvail.toNat (List.map s.ueMap.ulDemand _)) _) t
    scheduled buffered retx at hWalked
  have hSchedule : scheduleUlHarq bw s feedback =
      if 2 ^ 16 ≤ feedback.length ∧ t.symAvail ≠ 0 then none else some t := by
    have hRbg : t.startingPoint.rbg = 0 := hWalked.rbg.trans hCall.rbg
    rw [scheduleUlHarq, if_pos hCall.rbg, hLoop, Option.bind_some, if_pos hRbg]
  have hAvail : t.symAvail.toNat = remaining s.symAvail.toNat
      ((feedback.take (2 ^ 16)).map s.ueMap.ulDemand) := by
    rw [hWalked.firstFit, List.map_take]
    exact remaining_take_examined _ _
  rw [everyoneExamined_iff, hSchedule]
  constructor
  · rintro ⟨r, scheduled', buffered', retx', hEq, hKept⟩
    split at hEq
    · cases hEq
    · rename_i hNotWrapped
      cases hEq
      have hLengths := hKept.lengths
      rw [hWalked.lengths, List.length_take, List.length_take] at hLengths
      have hLe : feedback.length ≤ 2 ^ 16 := by
        change s.slotAlloc.varTtiAllocInfo.length + s.ulHarqToRetransmit.length + _ = _ at hLengths
        omega
      rw [List.take_of_length_le hLe] at hLengths hAvail
      refine ⟨?_, fun hFull => ⟨le_antisymm hLe hFull, ?_⟩⟩
      · have hBound := examined_le_length s.symAvail.toNat (feedback.map s.ueMap.ulDemand)
        rw [List.length_map] at hBound
        change s.slotAlloc.varTtiAllocInfo.length + s.ulHarqToRetransmit.length + _ = _ at hLengths
        omega
      · have hZero : t.symAvail = 0 := by
          by_contra hNe
          exact hNotWrapped ⟨hFull, hNe⟩
        rw [← hAvail, hZero]
        rfl
  · rintro ⟨hExamined, hFull⟩
    have hLe : feedback.length ≤ 2 ^ 16 := by
      rcases le_total feedback.length (2 ^ 16) with hLe | hGe
      · exact hLe
      · exact (hFull hGe).1.le
    rw [List.take_of_length_le hLe] at hWalked hAvail
    rw [hExamined, List.take_length] at hWalked
    refine ⟨t, scheduled, buffered, retx, if_neg ?_, hWalked.kept hCall.nodup⟩
    rintro ⟨hGe, hNe⟩
    rw [(hFull hGe).2] at hAvail
    exact hNe (UInt8.toNat_inj.mp hAvail)

/-- The grant that process `id` of user 1 waits to repeat: 12 symbols for process 0, one symbol for
process 1. -/
def waitingGrant (id : UInt8) : DciInfoElementTdma where
  rnti := 1
  format := .ul
  symStart := 1
  numSym := if id = 0 then 12 else 1
  mcs := [9]
  tbSize := [400]
  ndi := [1]
  rv := [0]
  type := .data
  harqProcess := id
  rbgBitmask := [1, 1]

def waitingUe : NrMacSchedulerUeInfo where
  rnti := 1
  dlHarq _ := none
  ulHarq id := some
    { active := true, status := .receivedFeedback, dciElement := some (waitingGrant id)
      nackStreamIndexes := [0] }

def waitingCall (symAvail : UInt8) : UlHarqState where
  startingPoint := { rbg := 0, sym := 13 }
  symAvail := symAvail
  ueMap rnti := if rnti = 1 then some waitingUe else none
  ulHarqToRetransmit := []
  slotAlloc := {}

def waitingFeedback : List UlHarqInfo := [⟨1, 0, .notOk⟩, ⟨1, 1, .notOk⟩]

theorem waitingCall_ulHarqCall (symAvail : UInt8) (hRoom : symAvail ≤ 13) :
    UlHarqCall (waitingCall symAvail) waitingFeedback where
  rbg := rfl
  room := hRoom
  nacked h hh := by
    refine ⟨waitingGrant h.harqProcessId, ?_⟩
    rcases List.mem_cons.mp hh with rfl | hh
    · exact ⟨rfl, ⟨_, rfl, rfl, rfl, rfl⟩, rfl, 0, rfl, by decide⟩
    · rw [List.mem_singleton.mp hh]
      exact ⟨rfl, ⟨_, rfl, rfl, rfl, rfl⟩, rfl, 0, rfl, by decide⟩
  nodup := by decide

theorem ulHarqKept_waiting : UlHarqCall (waitingCall 13) waitingFeedback ∧
    ∃ r scheduled buffered retx, scheduleUlHarq 51 (waitingCall 13) waitingFeedback = some r ∧
      UlHarqKept (waitingCall 13) waitingFeedback r scheduled buffered retx := by
  have hCall := waitingCall_ulHarqCall 13 (by decide)
  exact ⟨hCall, (ulHarqKept_iff 51 hCall).mpr ⟨Or.inr (by decide), fun hFull => by
    cases Nat.not_lt.mpr hFull (by decide)⟩⟩

/-- The first retransmission takes all twelve symbols, and the second NACK is in neither place. -/
theorem second_nack_lost : UlHarqCall (waitingCall 12) waitingFeedback ∧
    ¬ ∃ r scheduled buffered retx, scheduleUlHarq 51 (waitingCall 12) waitingFeedback = some r ∧
      UlHarqKept (waitingCall 12) waitingFeedback r scheduled buffered retx := by
  refine ⟨waitingCall_ulHarqCall 12 (by decide), ?_⟩
  rintro ⟨r, scheduled, buffered, retx, hRun, hKept⟩
  have hCount : (scheduleUlHarq 51 (waitingCall 12) waitingFeedback).map (fun r =>
      r.slotAlloc.varTtiAllocInfo.length + r.ulHarqToRetransmit.length) = some 1 := by decide
  rw [hRun, Option.map_some, Option.some_inj, hKept.lengths] at hCount
  cases hCount

end Bullet.Mac
