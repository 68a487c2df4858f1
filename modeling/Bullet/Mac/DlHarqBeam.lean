import Mathlib.Data.UInt
import Mathlib.Data.List.Forall2
import Mathlib.Data.List.Perm.Basic
import Bullet.Lib.ShelfPacking
import Bullet.Mac.DlHarq

/-! # The retransmissions of one beam

The inner loop of `ScheduleDlHarq` packs a shelf: the symbols of the beam are its height and the
bandwidth is its length.
-/

namespace Bullet.Mac

open Lib.Blocks Lib.ShelfPacking

theorem getElem?_rbgMask_eq_one_iff {size rbg count i : ℕ} :
    (rbgMask size rbg count)[i]? = some 1 ↔ i < size ∧ rbg ≤ i ∧ i < rbg + count := by
  rw [rbgMask, List.getElem?_map]
  rcases Nat.lt_or_ge i size with hLt | hGe
  · rw [List.getElem?_range hLt, Option.map_some, Option.some_inj]
    split
    · rename_i hIn
      exact iff_of_true rfl ⟨hLt, hIn⟩
    · rename_i hOut
      exact iff_of_false (by decide) fun h => hOut h.2
  · rw [List.getElem?_eq_none (List.length_range.trans_le hGe)]
    exact iff_of_false nofun fun h => Nat.not_lt.mpr hGe h.1

theorem count_rbgMask {size rbg count : ℕ} (h : rbg + count ≤ size) :
    (rbgMask size rbg count).count 1 = count := by
  have hMask : rbgMask size rbg count = List.replicate rbg 0 ++ (List.replicate count 1 ++
      List.replicate (size - (rbg + count)) 0) := by
    refine List.ext_getElem ?_ fun i hi hi' => ?_
    · rw [rbgMask, List.length_map, List.length_range, List.length_append, List.length_append,
        List.length_replicate, List.length_replicate, List.length_replicate]
      omega
    · simp only [rbgMask, List.getElem_map, List.getElem_range, List.getElem_append,
        List.length_replicate, List.getElem_replicate]
      split
      · rename_i hIn
        rw [dif_neg (by omega), dif_pos (by omega)]
      · rename_i hOut
        split
        · rfl
        · rw [dif_neg (by omega)]
  rw [hMask, List.count_append, List.count_append, List.count_replicate_self,
    List.count_replicate, List.count_replicate]
  exact (Nat.zero_add _).trans (Nat.add_zero _)

theorem getElem?_retxStreams {nackStreamIndexes : List UInt8} {streams i : ℕ}
    {nacked : UInt8 → UInt8} {acked : UInt8} {old : List UInt8} (hi : i < streams)
    (hMem : i ∈ nackStreamIndexes.map UInt8.toNat) (hOld : i < old.length) :
    (retxStreams nackStreamIndexes streams nacked acked old)[i]? = some (nacked old[i]) := by
  rw [retxStreams, List.getElem?_mapIdx, List.getElem?_eq_getElem hOld, Option.map_some,
    if_pos hi, if_pos hMem]

theorem dlProcess_putDlHarq {ueMap : UeMap} {key : HarqKey} {p : HarqProcess} (q : HarqProcess)
    {key' : HarqKey} (hProcess : ueMap.dlProcess key = some p) (hNe : key' ≠ key) :
    (ueMap.putDlHarq key q).dlProcess key' = ueMap.dlProcess key' := by
  obtain ⟨ue, hUe, -⟩ := Option.bind_eq_some_iff.mp hProcess
  rw [UeMap.dlProcess, UeMap.dlProcess, UeMap.putDlHarq]
  rcases eq_or_ne key'.rnti key.rnti with hRnti | hRnti
  · have hId : key'.harqProcessId ≠ key.harqProcessId := by
      intro hId
      refine hNe ?_
      cases key
      cases key'
      cases hRnti
      cases hId
      rfl
    rw [hRnti, Function.update_self, hUe, Option.map_some, Option.bind_some, Option.bind_some]
    exact Function.update_of_ne hId _ _
  · rw [Function.update_of_ne hRnti]

theorem dlProcess_setDlMRBRetx {ueMap ueMap' : UeMap} {rnti : UInt16} {v : UInt32}
    (h : ueMap.setDlMRBRetx rnti v = some ueMap') (key : HarqKey) :
    ueMap'.dlProcess key = ueMap.dlProcess key := by
  obtain ⟨ue, hUe, rfl⟩ := Option.map_eq_some_iff.mp h
  rw [UeMap.dlProcess, UeMap.dlProcess]
  rcases eq_or_ne key.rnti rnti with hRnti | hRnti
  · rw [hRnti, Function.update_self, hUe]
    rfl
  · rw [Function.update_of_ne hRnti]

/-- The process waits for its retransmission, with `dci` as its last grant, and its feedback is at
hand. -/
structure DlNacked (bw : UInt16) (feedback : List DlHarqInfo) (ueMap : UeMap) (key : HarqKey)
    (dci : DciInfoElementTdma) : Prop where
  process : ∃ p, ueMap.dlProcess key = some p ∧ p.status = .receivedFeedback ∧
    p.dciElement = some dci
  rnti : dci.rnti = key.rnti
  harqProcess : dci.harqProcess = key.harqProcessId
  format : dci.format = .dl
  mcs : dci.mcs.length = dci.tbSize.length
  ndi : dci.ndi.length = dci.tbSize.length
  rv : dci.rv.length = dci.tbSize.length ∧ ∀ rv ∈ dci.rv, rv < 4
  mask : dci.rbgBitmask.length = bw.toNat
  units : 0 < dci.units
  feedback : ∃ f ∈ feedback, f.key = key

/-- `dci` repeats the NACKed streams of `old` on at least as many RBG x symbol units. -/
structure DlRetx (nackStreamIndexes : List UInt8) (old dci : DciInfoElementTdma) : Prop where
  rnti : dci.rnti = old.rnti
  harqProcess : dci.harqProcess = old.harqProcess
  streams : dci.tbSize.length = old.tbSize.length
  nacked : ∀ i < old.tbSize.length, i ∈ nackStreamIndexes.map UInt8.toNat →
    dci.tbSize[i]? = old.tbSize[i]? ∧ dci.mcs[i]? = old.mcs[i]? ∧ dci.ndi[i]? = some 0 ∧
    ∃ rv rv', old.rv[i]? = some rv ∧ dci.rv[i]? = some rv' ∧ rv'.toNat = rv.toNat + 1
  acked : ∀ i < old.tbSize.length, i ∉ nackStreamIndexes.map UInt8.toNat → dci.tbSize[i]? = some 0
  units : old.units ≤ dci.units

theorem DlNacked.congr {bw : UInt16} {feedback : List DlHarqInfo} {ueMap ueMap' : UeMap}
    {key : HarqKey} {dci : DciInfoElementTdma} (h : DlNacked bw feedback ueMap key dci)
    (hEq : ueMap'.dlProcess key = ueMap.dlProcess key) : DlNacked bw feedback ueMap' key dci where
  process := by
    rw [hEq]
    exact h.process
  rnti := h.rnti
  harqProcess := h.harqProcess
  format := h.format
  mcs := h.mcs
  ndi := h.ndi
  rv := h.rv
  mask := h.mask
  units := h.units
  feedback := h.feedback

theorem retxDci_dlRetx {s : DlHarqState} {sym : UInt8} {nack : List UInt8} {bw : UInt16}
    {feedback : List DlHarqInfo} {ueMap : UeMap} {key : HarqKey} {old : DciInfoElementTdma}
    {width : ℕ} (h : DlNacked bw feedback ueMap key old)
    (hFit : s.startingPoint.rbg.toNat + width ≤ bw.toNat)
    (hUnits : old.units ≤ width * sym.toNat) :
    DlRetx nack old (s.retxDci sym nack old width) where
  rnti := rfl
  harqProcess := rfl
  streams := List.length_mapIdx
  nacked := by
    intro i hi hMem
    have hMcs : i < old.mcs.length := h.mcs ▸ hi
    have hNdi : i < old.ndi.length := h.ndi ▸ hi
    have hRv : i < old.rv.length := h.rv.1 ▸ hi
    have hRvNat : (old.rv[i] + 1).toNat = old.rv[i].toNat + 1 := by
      have hLt : old.rv[i].toNat < 4 := h.rv.2 _ (List.getElem_mem hRv)
      rw [UInt8.toNat_add, UInt8.toNat_one]
      omega
    refine ⟨?_, (getElem?_retxStreams hi hMem hMcs).trans (List.getElem?_eq_getElem hMcs).symm,
      getElem?_retxStreams hi hMem hNdi, old.rv[i], old.rv[i] + 1, List.getElem?_eq_getElem hRv,
      getElem?_retxStreams hi hMem hRv, hRvNat⟩
    rw [DlHarqState.retxDci, retxTbSize, List.getElem?_mapIdx, List.getElem?_eq_getElem hi,
      Option.map_some, if_pos hMem]
  acked := by
    intro i hi hMem
    rw [DlHarqState.retxDci, retxTbSize, List.getElem?_mapIdx, List.getElem?_eq_getElem hi,
      Option.map_some, if_neg hMem]
  units := by
    have hCount := count_rbgMask hFit
    rw [← h.mask] at hCount
    refine hUnits.trans (Nat.le_of_eq ?_)
    exact congrArg (· * sym.toNat) hCount.symm

def UeMap.dlGrant (ueMap : UeMap) (key : HarqKey) : Option DciInfoElementTdma :=
  (ueMap.dlProcess key).bind HarqProcess.dciElement

/-- The process as an item of its user, with the units of its last grant. -/
def UeMap.dlItem (ueMap : UeMap) (key : HarqKey) : Item UInt16 where
  owner := key.rnti
  area := ((ueMap.dlGrant key).map DciInfoElementTdma.units).getD 0

theorem DlNacked.dlItem {bw : UInt16} {feedback : List DlHarqInfo} {ueMap : UeMap} {key : HarqKey}
    {dci : DciInfoElementTdma} (h : DlNacked bw feedback ueMap key dci) :
    ueMap.dlItem key = ⟨key.rnti, dci.units⟩ := by
  obtain ⟨p, hProcess, -, hDci⟩ := h.process
  rw [UeMap.dlItem, UeMap.dlGrant, hProcess, Option.bind_some, hDci]
  rfl

theorem DlNacked.bufferHARQFeedback {bw : UInt16} {feedback : List DlHarqInfo} {ueMap : UeMap}
    {key : HarqKey} {dci : DciInfoElementTdma} (h : DlNacked bw feedback ueMap key dci)
    (toRetransmit : List DlHarqInfo) : ∃ f ∈ feedback, f.key = key ∧
      bufferHARQFeedback feedback toRetransmit dci.rnti dci.harqProcess =
        some (toRetransmit ++ [f]) := by
  obtain ⟨g, hg, rfl⟩ := h.feedback
  have hFound : (feedback.find? fun feedback =>
      feedback.rnti == dci.rnti && feedback.harqProcessId == dci.harqProcess).isSome := by
    rw [List.find?_isSome, h.rnti, h.harqProcess]
    refine ⟨g, hg, ?_⟩
    rw [Bool.and_eq_true, beq_iff_eq, beq_iff_eq]
    exact ⟨rfl, rfl⟩
  obtain ⟨f, hf⟩ := Option.isSome_iff_exists.mp hFound
  have hKey := List.find?_some hf
  rw [Bool.and_eq_true, beq_iff_eq, beq_iff_eq, h.rnti, h.harqProcess] at hKey
  refine ⟨f, List.mem_of_find?_eq_some hf, ?_, ?_⟩
  · rw [DlHarqInfo.key, hKey.1, hKey.2]
  · rw [Mac.bufferHARQFeedback, hf]
    rfl

namespace DlHarqState

def shelf (s : DlHarqState × List UInt16) : OpenShelf UInt16 where
  filled := s.1.startingPoint.rbg.toNat
  owners := s.2

theorem rbgAvail_toNat {bw : UInt16} {rbg : UInt32} {sym : UInt8} (h : rbg.toNat ≤ bw.toNat) :
    ((bw.toUInt32 - rbg) * sym.toUInt32).toNat = (bw.toNat - rbg.toNat) * sym.toNat := by
  have hBw : bw.toNat < 2 ^ 16 := bw.toNat_lt
  have hSym : sym.toNat < 2 ^ 8 := sym.toNat_lt
  have hSub : (bw.toUInt32 - rbg).toNat = bw.toNat - rbg.toNat := by
    rw [UInt32.toNat_sub_of_le _ _ (UInt32.le_iff_toNat_le.mpr (by simpa using h))]
    simp
  have hProduct : (bw.toNat - rbg.toNat) * sym.toNat < 2 ^ 16 * 2 ^ 8 :=
    Nat.mul_lt_mul'' (by omega) hSym
  rw [UInt32.toNat_mul, hSub, UInt8.toNat_toUInt32]
  exact Nat.mod_eq_of_lt (hProduct.trans (by decide))

theorem putDlHarq_setDlMRBRetx {ueMap : UeMap} {key : HarqKey} {p : HarqProcess}
    (q : HarqProcess) (v : UInt32) (hProcess : ueMap.dlProcess key = some p) :
    ∃ ueMap', (ueMap.putDlHarq key q).setDlMRBRetx key.rnti v = some ueMap' ∧
      ∀ key' ≠ key, ueMap'.dlProcess key' = ueMap.dlProcess key' := by
  obtain ⟨ue, hUe, -⟩ := Option.bind_eq_some_iff.mp hProcess
  have hSome : ((ueMap.putDlHarq key q).setDlMRBRetx key.rnti v).isSome := by
    rw [UeMap.setDlMRBRetx, Option.isSome_map, UeMap.putDlHarq, Function.update_self, hUe]
    rfl
  obtain ⟨ueMap', hSet⟩ := Option.isSome_iff_exists.mp hSome
  exact ⟨ueMap', hSet, fun key' hNe =>
    (dlProcess_setDlMRBRetx hSet key').trans (dlProcess_putDlHarq q hProcess hNe)⟩

section Step

variable {bw : UInt16} {sym : UInt8} {feedback : List DlHarqInfo} {s : DlHarqState × List UInt16}
  {key : HarqKey} {dci : DciInfoElementTdma}

theorem fits_iff (hNack : DlNacked bw feedback s.1.ueMap key dci)
    (hRbg : s.1.startingPoint.rbg.toNat ≤ bw.toNat) :
    (shelf s).Fits bw.toNat sym.toNat ⟨key.rnti, dci.units⟩ ↔
      ¬ (dci.rnti ∈ s.2 ∨
        ((bw.toUInt32 - s.1.startingPoint.rbg) * sym.toUInt32).toNat < dci.units) := by
  rw [rbgAvail_toNat hRbg, not_or, hNack.rnti, Nat.not_lt]
  rfl

/-- A process that fits is retransmitted from the starting point on. -/
theorem step_of_fits (hNack : DlNacked bw feedback s.1.ueMap key dci)
    (hRbg : s.1.startingPoint.rbg.toNat ≤ bw.toNat)
    (hFits : (shelf s).Fits bw.toNat sym.toNat ⟨key.rnti, dci.units⟩) :
    ∃ p ueMap, s.1.ueMap.dlProcess key = some p ∧ p.dciElement = some dci ∧
      (∀ key' ≠ key, ueMap.dlProcess key' = s.1.ueMap.dlProcess key') ∧
      step bw sym feedback s key = some ({ s.1 with
        startingPoint.rbg := s.1.startingPoint.rbg + UInt32.ofNat (width sym.toNat dci.units)
        ueMap := ueMap
        slotAlloc.varTtiAllocInfo := s.1.slotAlloc.varTtiAllocInfo ++
          [{ dci := s.1.retxDci sym p.nackStreamIndexes dci (width sym.toNat dci.units)
             rlcPduInfo := p.rlcPduInfo }] }, s.2 ++ [key.rnti]) := by
  obtain ⟨p, hProcess, hStatus, hDci⟩ := hNack.process
  obtain ⟨ueMap, hSet, hFrame⟩ := putDlHarq_setDlMRBRetx
    { p with
      status := .waitingFeedback, timer := 0
      dciElement := some
        (s.1.retxDci sym p.nackStreamIndexes dci (width sym.toNat dci.units)) }
    (sym.toUInt32 * UInt32.ofNat (width sym.toNat dci.units)) hProcess
  have hSym : sym ≠ 0 := by
    rintro rfl
    have hArea : dci.units ≤ 0 := hFits.2
    exact (Nat.not_lt.mpr hArea) hNack.units
  have hStreams : ¬ (dci.format ≠ .dl ∨ dci.mcs.length < dci.tbSize.length ∨
      dci.rv.length < dci.tbSize.length ∨ dci.ndi.length < dci.tbSize.length) := by
    rw [hNack.format, hNack.mcs, hNack.rv.1, hNack.ndi]
    simp
  have hMask : ¬ dci.rbgBitmask.length < width sym.toNat dci.units := by
    have hWidth := hFits.width_le hRbg
    rw [hNack.mask, Nat.not_lt]
    exact (Nat.le_add_left _ _).trans hWidth
  refine ⟨p, ueMap, hProcess, hDci, hFrame, ?_⟩
  rw [← hNack.rnti] at hSet
  have hRetransmit : s.1.retransmit sym key p dci = some { s.1 with
        startingPoint.rbg := s.1.startingPoint.rbg + UInt32.ofNat (width sym.toNat dci.units)
        ueMap := ueMap
        slotAlloc.varTtiAllocInfo := s.1.slotAlloc.varTtiAllocInfo ++
          [{ dci := s.1.retxDci sym p.nackStreamIndexes dci (width sym.toNat dci.units)
             rlcPduInfo := p.rlcPduInfo }] } := by
    rw [retransmit, if_neg hStreams, if_neg hSym]
    refine (if_neg hMask).trans ?_
    exact congrArg (Option.bind · _) hSet
  rw [step, hProcess, Option.bind_eq_bind, Option.bind_some, if_neg (not_not_intro hStatus), hDci,
    Option.bind_eq_bind, Option.bind_some, if_neg ((fits_iff hNack hRbg).mp hFits), hRetransmit,
    hNack.rnti]
  rfl

/-- A process that does not fit is buffered. -/
theorem step_of_not_fits (hNack : DlNacked bw feedback s.1.ueMap key dci)
    (hRbg : s.1.startingPoint.rbg.toNat ≤ bw.toNat)
    (hFits : ¬ (shelf s).Fits bw.toNat sym.toNat ⟨key.rnti, dci.units⟩) :
    ∃ f ueMap, f ∈ feedback ∧ f.key = key ∧
      (∀ key' ≠ key, ueMap.dlProcess key' = s.1.ueMap.dlProcess key') ∧
      step bw sym feedback s key = some ({ s.1 with
        ueMap := ueMap
        dlHarqToRetransmit := s.1.dlHarqToRetransmit ++ [f] }, s.2) := by
  obtain ⟨p, hProcess, hStatus, hDci⟩ := hNack.process
  obtain ⟨f, hMem, hKey, hBuffer⟩ := hNack.bufferHARQFeedback s.1.dlHarqToRetransmit
  refine ⟨f, _, hMem, hKey, fun key' hNe => dlProcess_putDlHarq
    { p with status := .waitingFeedback, timer := 0 } hProcess hNe, ?_⟩
  rw [step, hProcess, Option.bind_eq_bind, Option.bind_some, if_neg (not_not_intro hStatus), hDci,
    Option.bind_eq_bind, Option.bind_some, if_pos (not_not.mp fun h => hFits
      ((fits_iff hNack hRbg).mpr h)), hBuffer]
  rfl

end Step

/-- The allocation `a` retransmits the process at `key`. -/
def Retransmits (ueMap : UeMap) (key : HarqKey) (a : VarTtiAllocInfo) : Prop :=
  ∃ p old, ueMap.dlProcess key = some p ∧ p.dciElement = some old ∧
    a.rlcPduInfo = p.rlcPduInfo ∧ DlRetx p.nackStreamIndexes old a.dci

/-- From `s` the inner loop walked over `keys`: those in `scheduled` got the allocations `allocs`,
on the RBGs `bands`, and the feedbacks of the others were buffered. -/
structure BeamWalked (bw : UInt16) (sym : UInt8) (feedback : List DlHarqInfo)
    (s : DlHarqState × List UInt16) (keys : List HarqKey) (r : DlHarqState × List UInt16)
    (scheduled : List HarqKey) (buffered : List DlHarqInfo) (allocs : List VarTtiAllocInfo)
    (bands : List Block) : Prop where
  partition : (scheduled ++ buffered.map DlHarqInfo.key).Perm keys
  repeats : List.Forall₂ (Retransmits s.1.ueMap) scheduled allocs
  masks : List.Forall₂ (fun a b => a.dci.rbgBitmask = rbgMask bw.toNat b.start b.len) allocs bands
  symbols : ∀ a ∈ allocs, a.dci.symbols = ⟨s.1.startingPoint.sym.toNat, sym.toNat⟩
  stacked : StackedAbove s.1.startingPoint.rbg.toNat bands
  rbg : r.1.startingPoint.rbg.toNat = s.1.startingPoint.rbg.toNat + total bands
  bound : r.1.startingPoint.rbg.toNat ≤ bw.toNat
  startSym : r.1.startingPoint.sym = s.1.startingPoint.sym
  usedSym : r.1.usedSym = s.1.usedSym
  ues : r.2 = s.2 ++ scheduled.map HarqKey.rnti
  packed : shelf r = (shelf s).pack bw.toNat sym.toNat (keys.map s.1.ueMap.dlItem)
  allocated : r.1.slotAlloc.varTtiAllocInfo = s.1.slotAlloc.varTtiAllocInfo ++ allocs
  buffers : r.1.dlHarqToRetransmit = s.1.dlHarqToRetransmit ++ buffered
  feedbacks : ∀ f ∈ buffered, f ∈ feedback
  frame : ∀ key ∉ keys, r.1.ueMap.dlProcess key = s.1.ueMap.dlProcess key

section Walk

variable {bw : UInt16} {sym : UInt8} {feedback : List DlHarqInfo}
  {s r t : DlHarqState × List UInt16} {keys keys' scheduled scheduled' : List HarqKey}
  {buffered buffered' : List DlHarqInfo} {allocs allocs' : List VarTtiAllocInfo}
  {bands bands' : List Block}

theorem BeamWalked.refl (hRbg : s.1.startingPoint.rbg.toNat ≤ bw.toNat) :
    BeamWalked bw sym feedback s [] s [] [] [] [] where
  partition := List.Perm.refl _
  repeats := List.Forall₂.nil
  masks := List.Forall₂.nil
  symbols := nofun
  stacked := trivial
  rbg := rfl
  bound := hRbg
  startSym := rfl
  usedSym := rfl
  ues := (List.append_nil _).symm
  packed := rfl
  allocated := (List.append_nil _).symm
  buffers := (List.append_nil _).symm
  feedbacks := nofun
  frame := fun _ _ => rfl

theorem Retransmits.congr {ueMap ueMap' : UeMap} {key : HarqKey} {a : VarTtiAllocInfo}
    (h : Retransmits ueMap key a) (hEq : ueMap'.dlProcess key = ueMap.dlProcess key) :
    Retransmits ueMap' key a := by
  obtain ⟨p, old, hProcess, hRest⟩ := h
  exact ⟨p, old, hEq.trans hProcess, hRest⟩

theorem dlItem_congr {ueMap ueMap' : UeMap} {key : HarqKey}
    (hEq : ueMap'.dlProcess key = ueMap.dlProcess key) : ueMap'.dlItem key = ueMap.dlItem key := by
  rw [UeMap.dlItem, UeMap.dlItem, UeMap.dlGrant, UeMap.dlGrant, hEq]

theorem BeamWalked.trans (h : BeamWalked bw sym feedback s keys r scheduled buffered allocs bands)
    (h' : BeamWalked bw sym feedback r keys' t scheduled' buffered' allocs' bands')
    (hApart : keys'.Disjoint keys) :
    BeamWalked bw sym feedback s (keys ++ keys') t (scheduled ++ scheduled')
      (buffered ++ buffered') (allocs ++ allocs') (bands ++ bands') where
  partition := by
    rw [List.map_append]
    exact append_perm_append h.partition h'.partition
  repeats := by
    have hMem : ∀ key ∈ scheduled', key ∈ keys' := fun key hKey =>
      h'.partition.subset (List.mem_append_left _ hKey)
    refine List.rel_append h.repeats
      (((List.forall₂_and_left _ _).mpr ⟨hMem, h'.repeats⟩).imp ?_)
    rintro key a ⟨hKey, hRetx⟩
    exact hRetx.congr (h.frame key (hApart hKey)).symm
  masks := List.rel_append h.masks h'.masks
  symbols := by
    intro a ha
    rcases List.mem_append.mp ha with ha | ha
    · exact h.symbols a ha
    · rw [h'.symbols a ha, h.startSym]
  stacked := by
    have hStacked := h'.stacked
    rw [h.rbg] at hStacked
    exact h.stacked.append hStacked
  rbg := by rw [h'.rbg, h.rbg, total_append, Nat.add_assoc]
  bound := h'.bound
  startSym := h'.startSym.trans h.startSym
  usedSym := h'.usedSym.trans h.usedSym
  ues := by rw [h'.ues, h.ues, List.map_append, List.append_assoc]
  packed := by
    have hItems : keys'.map r.1.ueMap.dlItem = keys'.map s.1.ueMap.dlItem :=
      List.map_congr_left fun key hKey => dlItem_congr (h.frame key (hApart hKey))
    rw [h'.packed, h.packed, hItems, List.map_append, OpenShelf.pack_append]
  allocated := by rw [h'.allocated, h.allocated, List.append_assoc]
  buffers := by rw [h'.buffers, h.buffers, List.append_assoc]
  feedbacks := by
    intro f hf
    rcases List.mem_append.mp hf with hf | hf
    · exact h.feedbacks f hf
    · exact h'.feedbacks f hf
  frame := by
    intro key hKey
    rw [List.mem_append, not_or] at hKey
    rw [h'.frame key hKey.2, h.frame key hKey.1]

theorem step_walked (sym : UInt8) {key : HarqKey} {dci : DciInfoElementTdma}
    (hNack : DlNacked bw feedback s.1.ueMap key dci)
    (hRbg : s.1.startingPoint.rbg.toNat ≤ bw.toNat) :
    ∃ r scheduled buffered allocs bands, step bw sym feedback s key = some r ∧
      BeamWalked bw sym feedback s [key] r scheduled buffered allocs bands := by
  have hItem : [key].map s.1.ueMap.dlItem = [⟨key.rnti, dci.units⟩] := by
    rw [List.map_singleton, hNack.dlItem]
  rcases Decidable.em ((shelf s).Fits bw.toNat sym.toNat ⟨key.rnti, dci.units⟩) with hFits | hFits
  · obtain ⟨p, ueMap, hProcess, hDci, hFrame, hStep⟩ := step_of_fits hNack hRbg hFits
    have hWidth : s.1.startingPoint.rbg.toNat + width sym.toNat dci.units ≤ bw.toNat :=
      hFits.width_le hRbg
    have hBw : bw.toNat < 2 ^ 16 := bw.toNat_lt
    have hRbgNat : (s.1.startingPoint.rbg + UInt32.ofNat (width sym.toNat dci.units)).toNat =
        s.1.startingPoint.rbg.toNat + width sym.toNat dci.units := by
      rw [UInt32.toNat_add, UInt32.toNat_ofNat']
      omega
    have hSym : 0 < sym.toNat := by
      rcases Nat.eq_zero_or_pos sym.toNat with hZero | hPos
      · have hArea := hFits.2
        rw [hZero, Nat.mul_zero] at hArea
        exact absurd hNack.units (Nat.not_lt.mpr hArea)
      · exact hPos
    refine ⟨_, [key], [], _, [⟨s.1.startingPoint.rbg.toNat, width sym.toNat dci.units⟩], hStep,
      List.Perm.refl _, ?_, ?_, ?_, ⟨rfl, trivial⟩, hRbgNat, hRbgNat.trans_le hWidth, rfl, rfl,
      rfl, ?_, rfl, (List.append_nil _).symm, nofun, ?_⟩
    · exact List.Forall₂.cons ⟨p, dci, hProcess, hDci, rfl,
        retxDci_dlRetx hNack hWidth (area_le_width_mul _ _ hSym)⟩ List.Forall₂.nil
    · refine List.Forall₂.cons ?_ List.Forall₂.nil
      rw [← hNack.mask]
      rfl
    · intro a ha
      rw [List.mem_singleton.mp ha]
      rfl
    · rw [hItem]
      refine Eq.trans ?_ (OpenShelf.place_of_fits hFits).symm
      exact congrArg (OpenShelf.mk · _) hRbgNat
    · exact fun key' hKey => hFrame key' fun hEq => hKey (List.mem_singleton.mpr hEq)
  · obtain ⟨f, ueMap, hMem, hKey, hFrame, hStep⟩ := step_of_not_fits hNack hRbg hFits
    refine ⟨_, [], [f], [], [], hStep, ?_, List.Forall₂.nil, List.Forall₂.nil, nofun, trivial, rfl,
      hRbg, rfl, rfl, (List.append_nil _).symm, ?_, (List.append_nil _).symm, rfl, ?_, ?_⟩
    · rw [List.map_singleton, hKey]
      exact List.Perm.refl _
    · rw [hItem]
      exact (OpenShelf.place_of_not_fits hFits).symm
    · exact fun g hg => List.mem_singleton.mp hg ▸ hMem
    · exact fun key' hKey' => hFrame key' fun hEq => hKey' (List.mem_singleton.mpr hEq)

theorem beamLoop_walked (sym : UInt8)
    (hNacked : ∀ key ∈ keys, ∃ dci, DlNacked bw feedback s.1.ueMap key dci)
    (hNodup : keys.Nodup) (hRbg : s.1.startingPoint.rbg.toNat ≤ bw.toNat) :
    ∃ r scheduled buffered allocs bands, beamLoop bw sym feedback s keys = some r ∧
      BeamWalked bw sym feedback s keys r scheduled buffered allocs bands := by
  induction keys generalizing s with
  | nil => exact ⟨s, [], [], [], [], rfl, BeamWalked.refl hRbg⟩
  | cons key keys ih =>
    obtain ⟨dci, hNack⟩ := hNacked key List.mem_cons_self
    obtain ⟨hNotIn, hRestNodup⟩ := List.nodup_cons.mp hNodup
    obtain ⟨r, scheduled, buffered, allocs, bands, hStep, hWalked⟩ :=
      step_walked sym hNack hRbg
    have hApart : keys.Disjoint [key] := fun k hk hKey => hNotIn (List.mem_singleton.mp hKey ▸ hk)
    obtain ⟨t, scheduled', buffered', allocs', bands', hLoop, hRest⟩ := ih (s := r)
      (fun k hk => by
        obtain ⟨dci, hNack⟩ := hNacked k (List.mem_cons_of_mem _ hk)
        exact ⟨dci, hNack.congr (hWalked.frame k (hApart hk))⟩) hRestNodup hWalked.bound
    refine ⟨t, _, _, _, _, ?_, hWalked.trans hRest hApart⟩
    rw [beamLoop, hStep]
    exact hLoop

end Walk

end DlHarqState

end Bullet.Mac
