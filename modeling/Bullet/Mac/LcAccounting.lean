import Bullet.Lib.PartialRun
import Bullet.Mac.NewData
import Mathlib.Data.List.Forall2
import Mathlib.Data.List.Perm.Subperm
import Mathlib.Data.List.Nodup

/-! # What a grant does to a logical channel

A channel that is given bytes lowers one of its queues. It keeps a residue when the transmission
queue is emptied or only a few bytes of it are left. The bytes of a channel are an even share of a
transport block.
-/

namespace Bullet.Mac

open Lib.PartialRun

namespace NrMacSchedulerLC

variable {format : DciFormat} {size : UInt32} {lc lc' : NrMacSchedulerLC}

/-- `rlcOverhead`, which SRB1 overestimates in DL. -/
def rlcOverhead (format : DciFormat) (lcId : UInt8) : UInt32 :=
  if lcId = 1 ∧ format = .dl then 4 else 2

/-- Neither the status PDU nor the retransmissions fit, and there is new data. -/
def ServesTransmission (size : UInt32) (lc : NrMacSchedulerLC) : Prop :=
  ¬ (0 < lc.rlcStatusPduSize ∧ lc.rlcStatusPduSize ≤ size) ∧
    ¬ (0 < lc.rlcRetransmissionQueueSize ∧ lc.rlcRetransmissionQueueSize ≤ size) ∧
    0 < lc.rlcTransmissionQueueSize

/-- The transmission queue is treated as emptied. -/
def Empties (format : DciFormat) (size : UInt32) (lc : NrMacSchedulerLC) : Prop :=
  ServesTransmission size lc ∧ lc.rlcTransmissionQueueSize ≤ size - rlcOverhead format lc.id

instance : Decidable (ServesTransmission size lc) := by
  unfold ServesTransmission
  infer_instance

instance : Decidable (Empties format size lc) := by
  unfold Empties
  infer_instance

/-- The bytes recorded for a channel. -/
def demand (lc : NrMacSchedulerLC) : ℕ :=
  lc.rlcTransmissionQueueSize.toNat + lc.rlcRetransmissionQueueSize.toNat +
    lc.rlcStatusPduSize.toNat + lc.proactiveQueueSize.toNat

/-- What is kept of a transmission queue with a few bytes left. -/
def smallResidue : DciFormat → UInt32
  | .dl => 10
  | .ul => 12

/-- A channel before and after it is given `size` bytes. -/
structure Accounts (format : DciFormat) (size : UInt32) (lc lc' : NrMacSchedulerLC) : Prop where
  id : lc'.id = lc.id
  proactive : lc'.proactiveQueueSize = lc.proactiveQueueSize
  oneQueue :
    lc'.rlcTransmissionQueueSize = lc.rlcTransmissionQueueSize ∧
        lc'.rlcRetransmissionQueueSize = lc.rlcRetransmissionQueueSize ∨
      lc'.rlcTransmissionQueueSize = lc.rlcTransmissionQueueSize ∧
        lc'.rlcStatusPduSize = lc.rlcStatusPduSize ∨
      lc'.rlcRetransmissionQueueSize = lc.rlcRetransmissionQueueSize ∧
        lc'.rlcStatusPduSize = lc.rlcStatusPduSize
  lowered : lc.demand ≤ lc'.demand + size.toNat
  emptied : Empties format size lc →
    lc.rlcTransmissionQueueSize.toNat + (rlcOverhead format lc.id).toNat ≤ size.toNat
  raised : lc.demand < lc'.demand → lc'.rlcTransmissionQueueSize =
    if Empties format size lc then 50 else smallResidue format

/-- A queue other than the transmission queue is served, or none. -/
theorem accounts_of_not_serves (h : ¬ ServesTransmission size lc) :
    Accounts format size lc (lc.assignedData format size) := by
  have hEmpties : ¬ Empties format size lc := fun hEmpties => h hEmpties.1
  unfold assignedData
  split
  case isTrue hStatus =>
    have hFits := UInt32.le_iff_toNat_le.mp hStatus.2
    refine ⟨rfl, rfl, Or.inl ⟨rfl, rfl⟩, ?_, fun hE => absurd hE hEmpties, ?_⟩
    · simp only [demand, UInt32.toNat_zero]
      omega
    · intro hRaised
      simp only [demand, UInt32.toNat_zero] at hRaised
      omega
  case isFalse hStatus =>
    split
    case isTrue hRetx =>
      have hFits := UInt32.le_iff_toNat_le.mp hRetx.2
      refine ⟨rfl, rfl, Or.inr (Or.inl ⟨rfl, rfl⟩), ?_, fun hE => absurd hE hEmpties, ?_⟩
      · simp only [demand, UInt32.toNat_zero]
        omega
      · intro hRaised
        simp only [demand, UInt32.toNat_zero] at hRaised
        omega
    case isFalse hRetx =>
      rw [if_neg fun hNew => h ⟨hStatus, hRetx, hNew⟩]
      exact ⟨rfl, rfl, Or.inl ⟨rfl, rfl⟩, Nat.le_add_right _ _, fun hE => absurd hE hEmpties,
        fun hRaised => absurd hRaised (Nat.lt_irrefl _)⟩

/-- The transmission queue after it has been served. -/
def servedQueue (format : DciFormat) (size : UInt32) (lc : NrMacSchedulerLC) : UInt32 :=
  if lc.rlcTransmissionQueueSize ≤ size - rlcOverhead format lc.id then 50
  else if 0 < lc.rlcTransmissionQueueSize - (size - rlcOverhead format lc.id) ∧
      lc.rlcTransmissionQueueSize - (size - rlcOverhead format lc.id) < smallResidue format then
    smallResidue format
  else lc.rlcTransmissionQueueSize - (size - rlcOverhead format lc.id)

theorem assignedData_of_serves (h : ServesTransmission size lc) :
    lc.assignedData format size =
      { lc with rlcTransmissionQueueSize := servedQueue format size lc } := by
  obtain ⟨hStatus, hRetx, hNew⟩ := h
  rw [assignedData, if_neg hStatus, if_neg hRetx, if_pos hNew]
  dsimp only
  have hOverhead : (if lc.id = 1 ∧ format = .dl then 4 else 2) = rlcOverhead format lc.id := rfl
  rw [hOverhead, servedQueue]
  generalize size - rlcOverhead format lc.id = room
  cases format
  · split
    · rfl
    · simp [smallResidue]
      rfl
  · split
    · rfl
    · simp [smallResidue]
      rfl

theorem rlcOverhead_le (format : DciFormat) (lcId : UInt8) : (rlcOverhead format lcId).toNat ≤ 4 := by
  unfold rlcOverhead
  split <;> decide

theorem smallResidue_le (format : DciFormat) : (smallResidue format).toNat ≤ 12 := by
  cases format <;> decide

/-- When the overhead fits, the subtraction is the one that is meant. -/
theorem accounts_of_overhead_le (h : ServesTransmission size lc)
    (hFits : rlcOverhead format lc.id ≤ size) :
    Accounts format size lc (lc.assignedData format size) := by
  rw [assignedData_of_serves h]
  have hRoom := UInt32.toNat_sub_of_le _ _ hFits
  rw [UInt32.le_iff_toNat_le] at hFits
  refine ⟨rfl, rfl, Or.inr (Or.inr ⟨rfl, rfl⟩), ?_, ?_, ?_⟩
  · simp only [demand, servedQueue]
    split
    case isTrue hEmpties =>
      rw [UInt32.le_iff_toNat_le] at hEmpties
      omega
    case isFalse hSome =>
      rw [UInt32.le_iff_toNat_le, Nat.not_le] at hSome
      have hRest := UInt32.toNat_sub_of_le _ _ (UInt32.le_iff_toNat_le.mpr hSome.le)
      split
      case isTrue hSmall =>
        have hLess := UInt32.lt_iff_toNat_lt.mp hSmall.2
        omega
      case isFalse => omega
  · rintro ⟨-, hEmpties⟩
    rw [UInt32.le_iff_toNat_le] at hEmpties
    omega
  · intro hRaised
    have hRises : lc.rlcTransmissionQueueSize.toNat < (servedQueue format size lc).toNat := by
      simp only [demand] at hRaised
      omega
    dsimp only
    unfold servedQueue at hRises ⊢
    split at hRises
    case isTrue hEmpties => rw [if_pos hEmpties, if_pos ⟨h, hEmpties⟩]
    case isFalse hSome =>
      have hNot : ¬ Empties format size lc := fun hE => hSome hE.2
      rw [if_neg hSome, if_neg hNot]
      split at hRises
      case isTrue hSmall => rw [if_pos hSmall]
      case isFalse =>
        rw [UInt32.le_iff_toNat_le, Nat.not_le] at hSome
        rw [UInt32.toNat_sub_of_le _ _ (UInt32.le_iff_toNat_le.mpr hSome.le)] at hRises
        omega

/-- A grant below the overhead wraps, and more than the grant is taken off. -/
theorem not_accounts_of_lt_overhead (h : ServesTransmission size lc)
    (hShort : ¬ rlcOverhead format lc.id ≤ size) :
    ¬ Accounts format size lc (lc.assignedData format size) := by
  intro hAccounts
  rw [UInt32.le_iff_toNat_le, Nat.not_le] at hShort
  have hOverhead := rlcOverhead_le format lc.id
  have hRoom := UInt32.toNat_sub size (rlcOverhead format lc.id)
  rw [Nat.mod_eq_of_lt (by omega)] at hRoom
  by_cases hEmpties : lc.rlcTransmissionQueueSize ≤ size - rlcOverhead format lc.id
  · have hCovers := hAccounts.emptied ⟨h, hEmpties⟩
    omega
  · have hLowered := hAccounts.lowered
    rw [assignedData_of_serves h] at hLowered
    simp only [demand, servedQueue, if_neg hEmpties] at hLowered
    have hResidue := smallResidue_le format
    have hBound := UInt32.toNat_lt lc.rlcTransmissionQueueSize
    rw [UInt32.le_iff_toNat_le, Nat.not_le] at hEmpties
    have hRest := UInt32.toNat_sub_of_le _ _ (UInt32.le_iff_toNat_le.mpr hEmpties.le)
    split at hLowered <;> omega

theorem accounts_iff : Accounts format size lc (lc.assignedData format size) ↔
    (ServesTransmission size lc → rlcOverhead format lc.id ≤ size) := by
  constructor
  · intro hAccounts hServes
    by_contra hShort
    exact not_accounts_of_lt_overhead hServes hShort hAccounts
  · intro hFits
    by_cases hServes : ServesTransmission size lc
    · exact accounts_of_overhead_le hServes (hFits hServes)
    · exact accounts_of_not_serves hServes

end NrMacSchedulerLC

/-- The channel of a grant is charged, and all others stay as they are. -/
def GroupsAccount (format : DciFormat) (lcg lcId : UInt8) (size : UInt32) :
    List NrMacSchedulerLCG → List NrMacSchedulerLCG → Prop :=
  List.Forall₂ fun g g' => g'.id = g.id ∧ List.Forall₂ (fun lc lc' =>
    if g.id = lcg ∧ lc.id = lcId then NrMacSchedulerLC.Accounts format size lc lc' else lc' = lc) g.lcMap g'.lcMap

/-- A grant is accounted for exactly when the overhead fits in it, or it is not the transmission
queue that is served. -/
theorem assignedData_accounts_iff (format : DciFormat) (ueLCG : List NrMacSchedulerLCG)
    (lcg lcId : UInt8) (size : UInt32) :
    GroupsAccount format lcg lcId size ueLCG (assignedData format ueLCG lcg lcId size) ↔
      ∀ g ∈ ueLCG, g.id = lcg → ∀ lc ∈ g.lcMap, lc.id = lcId →
        NrMacSchedulerLC.ServesTransmission size lc →
          NrMacSchedulerLC.rlcOverhead format lc.id ≤ size := by
  rw [GroupsAccount, assignedData, List.forall₂_map_right_iff, List.forall₂_same]
  apply forall₂_congr
  intro g hG
  by_cases hGroup : g.id = lcg
  · simp only [hGroup, if_true, true_and, forall_const]
    rw [List.forall₂_map_right_iff, List.forall₂_same]
    apply forall₂_congr
    intro lc hLc
    by_cases hChannel : lc.id = lcId
    · simp only [hChannel, if_true, forall_const]
      rw [← hChannel]
      exact NrMacSchedulerLC.accounts_iff
    · simp [hChannel]
  · simp [hGroup]

/-- 100 bytes on each of two channels. -/
def twoChannels : List NrMacSchedulerLCG :=
  [⟨0, [⟨1, 100, 0, 0, 0⟩, ⟨3, 100, 0, 0, 0⟩]⟩]

theorem assignedData_accounts_srb1 :
    GroupsAccount .dl 0 1 40 twoChannels (assignedData .dl twoChannels 0 1 40) :=
  (assignedData_accounts_iff .dl twoChannels 0 1 40).mpr (by decide +kernel)

/-- No bytes at all empty a queue of 1000 bytes. -/
theorem zero_bytes_empty :
    assignedData .dl [⟨0, [⟨3, 1000, 0, 0, 0⟩]⟩] 0 3 0 = [⟨0, [⟨3, 50, 0, 0, 0⟩]⟩] ∧
      ¬ GroupsAccount .dl 0 3 0 [⟨0, [⟨3, 1000, 0, 0, 0⟩]⟩]
        (assignedData .dl [⟨0, [⟨3, 1000, 0, 0, 0⟩]⟩] 0 3 0) := by
  refine ⟨by decide +kernel, ?_⟩
  rintro (_ | ⟨⟨-, hChannels⟩, -⟩)
  rcases hChannels with _ | ⟨hChannel, -⟩
  exact absurd hChannel.emptied (by decide +kernel)

/-! ## The shares of a transport block -/

/-- The channels with something to send. -/
def activeLcs (ueLCG : List NrMacSchedulerLCG) : List (UInt8 × UInt8) :=
  ueLCG.flatMap fun g => (g.lcMap.filter fun lc => 0 < lc.totalSize).map fun lc => (g.id, lc.id)

/-- The keys of the maps of groups and of channels. -/
structure UniqueKeys (ueLCG : List NrMacSchedulerLCG) : Prop where
  groups : (ueLCG.map NrMacSchedulerLCG.id).Nodup
  channels : ∀ g ∈ ueLCG, (g.lcMap.map NrMacSchedulerLC.id).Nodup

/-- The MAC subheader and the least opportunity that the RLC accepts. -/
def minShare : UInt32 := 3 + 7

/-- The shares of a block of `tbs` bytes. -/
structure Split (ueLCG : List NrMacSchedulerLCG) (tbs : UInt32) (shares : List Assignation) :
    Prop where
  sum : (shares.map fun a => a.bytes.toNat).sum ≤ tbs.toNat
  once : ∀ g ∈ ueLCG, ∀ lc ∈ g.lcMap, 0 < lc.totalSize →
    shares.countP (fun a => a.lcg = g.id ∧ a.lcId = lc.id) = 1
  usable : ∀ a ∈ shares, a.bytes ≠ 0 → minShare ≤ a.bytes

/-- The shares of each stream, gathered by channel. -/
def bytesPerLcPerStream (ueLCG : List NrMacSchedulerLCG) (tbSize : List UInt32) :
    List (List Assignation) :=
  let bytesPerStream := tbSize.map fun tbs => assignBytesToLC ueLCG tbs
  (List.range (bytesPerStream.head?.getD []).length).map fun i => bytesPerStream.filterMap (·[i]?)

/-- The streams of a block are split, and their PDUs pass the assertion on their size and can be
used. -/
structure SplitsBlock (ueLCG : List NrMacSchedulerLCG) (tbSize : List UInt32) : Prop where
  split : ∀ tbs ∈ tbSize, Split ueLCG tbs (assignBytesToLC ueLCG tbs)
  pdus : ∃ rlcPduInfo : List (List RlcPduInfo),
    ((bytesPerLcPerStream ueLCG tbSize).mapM fun bytesPerLc => bytesPerLc.mapM rlcPdu) =
      some rlcPduInfo ∧
    ∀ pdus ∈ rlcPduInfo, ∀ pdu ∈ pdus, pdu.size = 0 ∨ 7 ≤ pdu.size

section Shares

variable {ueLCG : List NrMacSchedulerLCG} {tbs : UInt32}

theorem mem_activeLcs {key : UInt8 × UInt8} : key ∈ activeLcs ueLCG ↔
    ∃ g ∈ ueLCG, ∃ lc ∈ g.lcMap, 0 < lc.totalSize ∧ (g.id, lc.id) = key := by
  simp [activeLcs, and_assoc]

theorem activeLcs_nodup (h : UniqueKeys ueLCG) : (activeLcs ueLCG).Nodup := by
  rw [activeLcs, List.nodup_flatMap]
  constructor
  · intro g hG
    have hIds := h.channels g hG
    have hActive : ((g.lcMap.filter fun lc => 0 < lc.totalSize).map NrMacSchedulerLC.id).Nodup :=
      hIds.sublist (List.filter_sublist.map _)
    have hPairs := hActive.map (Prod.mk_right_injective g.id)
    rwa [List.map_map] at hPairs
  · have hGroups : ueLCG.Pairwise fun g g' => g.id ≠ g'.id := List.pairwise_map.mp h.groups
    refine hGroups.imp fun hNe => ?_
    intro key hLeft hRight
    obtain ⟨lc, -, rfl⟩ := List.mem_map.mp hLeft
    obtain ⟨lc', -, hEq⟩ := List.mem_map.mp hRight
    exact hNe (congrArg Prod.fst hEq).symm

/-- There are as many channels as pairs of bytes, at most. -/
theorem length_activeLcs_lt (h : UniqueKeys ueLCG) : (activeLcs ueLCG).length < 2 ^ 32 := by
  let code : UInt8 × UInt8 → ℕ := fun key => key.1.toNat * 256 + key.2.toNat
  have hInjective : Function.Injective code := by
    rintro ⟨a, b⟩ ⟨c, d⟩ hEq
    have hB := UInt8.toNat_lt b
    have hD := UInt8.toNat_lt d
    have hFirst : a.toNat = c.toNat := by
      simp only [code] at hEq
      omega
    have hSecond : b.toNat = d.toNat := by
      simp only [code] at hEq
      omega
    rw [UInt8.toNat_inj.mp hFirst, UInt8.toNat_inj.mp hSecond]
  have hCodes : (activeLcs ueLCG).map code ⊆ List.range 65536 := by
    intro n hMem
    obtain ⟨⟨a, b⟩, -, rfl⟩ := List.mem_map.mp hMem
    have hA := UInt8.toNat_lt a
    have hB := UInt8.toNat_lt b
    rw [List.mem_range]
    simp only [code]
    omega
  have hLe := (List.subperm_of_subset ((activeLcs_nodup h).map hInjective) hCodes).length_le
  rw [List.length_map, List.length_range] at hLe
  omega

/-- The bytes of each share. -/
theorem assignBytesToLC_eq (h : UniqueKeys ueLCG) (tbs : UInt32) :
    ∃ amount : UInt32, amount.toNat = tbs.toNat / (activeLcs ueLCG).length ∧
      assignBytesToLC ueLCG tbs = (activeLcs ueLCG).map fun key => ⟨key.1, key.2, amount⟩ := by
  refine ⟨tbs / UInt32.ofNat (activeLcs ueLCG).length, ?_, rfl⟩
  rw [UInt32.toNat_div, UInt32.toNat_ofNat_of_lt' (length_activeLcs_lt h)]

theorem countP_share (h : UniqueKeys ueLCG) (amount : UInt32) {g : NrMacSchedulerLCG}
    {lc : NrMacSchedulerLC} (hMem : (g.id, lc.id) ∈ activeLcs ueLCG) :
    ((activeLcs ueLCG).map fun key => (⟨key.1, key.2, amount⟩ : Assignation)).countP
      (fun a => a.lcg = g.id ∧ a.lcId = lc.id) = 1 := by
  rw [List.countP_map, ← List.count_eq_one_of_mem (activeLcs_nodup h) hMem, List.count]
  apply List.countP_congr
  rintro ⟨a, b⟩ -
  simp

/-- The shares are as they should be exactly when they are all zero or none is too small. -/
theorem split_assignBytesToLC_iff (h : UniqueKeys ueLCG) :
    Split ueLCG tbs (assignBytesToLC ueLCG tbs) ↔ tbs.toNat < (activeLcs ueLCG).length ∨
      minShare.toNat * (activeLcs ueLCG).length ≤ tbs.toNat := by
  obtain ⟨amount, hAmount, hShares⟩ := assignBytesToLC_eq h tbs
  rw [hShares]
  rcases Nat.eq_zero_or_pos (activeLcs ueLCG).length with hNone | hSome
  · have hNil := List.eq_nil_of_length_eq_zero hNone
    rw [hNil]
    refine iff_of_true ⟨Nat.zero_le _, ?_, fun a hA => by cases hA⟩ (Or.inr (Nat.zero_le _))
    intro g hG lc hLc hActive
    have hMem : (g.id, lc.id) ∈ activeLcs ueLCG := mem_activeLcs.mpr ⟨g, hG, lc, hLc, hActive, rfl⟩
    rw [hNil] at hMem
    cases hMem
  · have hZero : amount ≠ 0 ↔ ¬ tbs.toNat < (activeLcs ueLCG).length := by
      rw [← Nat.div_eq_zero_iff_lt hSome, ← hAmount]
      exact not_congr UInt32.toNat_inj.symm
    have hEnough : minShare ≤ amount ↔
        minShare.toNat * (activeLcs ueLCG).length ≤ tbs.toNat := by
      rw [UInt32.le_iff_toNat_le, hAmount, Nat.le_div_iff_mul_le hSome]
    rw [← hEnough, or_iff_not_imp_left, ← hZero]
    constructor
    · intro hSplit
      obtain ⟨key, hKey⟩ := List.exists_mem_of_length_pos hSome
      exact hSplit.usable ⟨key.1, key.2, amount⟩ (List.mem_map.mpr ⟨key, hKey, rfl⟩)
    · intro hUsable
      refine ⟨?_, ?_, ?_⟩
      · rw [List.map_map]
        simp only [Function.comp_def, List.map_const', List.sum_replicate_nat, hAmount]
        exact Nat.mul_div_le _ _
      · intro g hG lc hLc hActive
        exact countP_share h amount (mem_activeLcs.mpr ⟨g, hG, lc, hLc, hActive, rfl⟩)
      · intro a hA
        obtain ⟨key, -, rfl⟩ := List.mem_map.mp hA
        exact hUsable

/-- A share that is zero or large enough makes a PDU that is empty or can be used. -/
theorem rlcPdu_of_usable {a : Assignation} (h : a.bytes ≠ 0 → minShare ≤ a.bytes) :
    rlcPdu a = some ⟨a.lcId, if a.bytes = 0 then 0 else a.bytes - 3⟩ ∧
      ((if a.bytes = 0 then 0 else a.bytes - 3) = (0 : UInt32) ∨
        7 ≤ if a.bytes = 0 then 0 else a.bytes - 3) := by
  unfold rlcPdu
  by_cases hZero : a.bytes = 0
  · simp [hZero]
  · have hEnough := UInt32.le_iff_toNat_le.mp (h hZero)
    have hTen : minShare.toNat = 10 := by decide
    have hThree : ¬ a.bytes < 3 := by
      rw [UInt32.lt_iff_toNat_lt, Nat.not_lt]
      exact le_trans (by decide) hEnough
    simp only [hZero, hThree, if_false]
    refine ⟨trivial, Or.inr ?_⟩
    rw [UInt32.le_iff_toNat_le, UInt32.toNat_sub_of_le _ _ (UInt32.not_lt.mp hThree)]
    have hLit : (3 : UInt32).toNat = 3 ∧ (7 : UInt32).toNat = 7 := by decide
    omega

theorem mem_bytesPerLcPerStream {tbSize : List UInt32} {row : List Assignation} {a : Assignation}
    (hRow : row ∈ bytesPerLcPerStream ueLCG tbSize) (hA : a ∈ row) :
    ∃ tbs ∈ tbSize, a ∈ assignBytesToLC ueLCG tbs := by
  obtain ⟨i, -, rfl⟩ := List.mem_map.mp hRow
  obtain ⟨shares, hShares, hGet⟩ := List.mem_filterMap.mp hA
  obtain ⟨tbs, hTbs, rfl⟩ := List.mem_map.mp hShares
  exact ⟨tbs, hTbs, List.mem_of_getElem? hGet⟩

/-- The blocks of a DCI are split as they should be exactly when each is too small for any share, or
large enough for all of them. -/
theorem splitsBlock_iff (h : UniqueKeys ueLCG) (tbSize : List UInt32) :
    SplitsBlock ueLCG tbSize ↔ ∀ tbs ∈ tbSize, tbs.toNat < (activeLcs ueLCG).length ∨
      minShare.toNat * (activeLcs ueLCG).length ≤ tbs.toNat := by
  constructor
  · intro hBlock tbs hTbs
    exact (split_assignBytesToLC_iff h).mp (hBlock.split tbs hTbs)
  · intro hSizes
    have hSplit : ∀ tbs ∈ tbSize, Split ueLCG tbs (assignBytesToLC ueLCG tbs) :=
      fun tbs hTbs => (split_assignBytesToLC_iff h).mpr (hSizes tbs hTbs)
    have hPdu : ∀ row ∈ bytesPerLcPerStream ueLCG tbSize, ∀ a ∈ row,
        a.bytes ≠ 0 → minShare ≤ a.bytes := by
      intro row hRow a hA
      obtain ⟨tbs, hTbs, hShare⟩ := mem_bytesPerLcPerStream hRow hA
      exact (hSplit tbs hTbs).usable a hShare
    refine ⟨hSplit, _, mapM_eq_map fun row hRow =>
      mapM_eq_map fun a hA => (rlcPdu_of_usable (hPdu row hRow a hA)).1, ?_⟩
    intro pdus hPdus pdu hMem
    obtain ⟨row, hRow, rfl⟩ := List.mem_map.mp hPdus
    obtain ⟨a, hA, rfl⟩ := List.mem_map.mp hMem
    exact (rlcPdu_of_usable (hPdu row hRow a hA)).2

/-- A DCI for blocks that are split as they should be gets past the assertions of
`DoScheduleDlData`. -/
theorem transportDl_of_splitsBlock {μ : Type} {ids : List UInt8} {ues : SchedUes μ} {rnti : UInt16}
    {dci : DciInfoElementTdma} {ue : NrMacSchedulerUeInfo} {id : UInt8} (hUe : ues.harq rnti = some ue)
    (hId : firstAvailableId ids ue.dlHarq = some id)
    (hActive : bytesPerLcPerStream (ues.dlLCG rnti) dci.tbSize ≠ [])
    (hBlock : SplitsBlock (ues.dlLCG rnti) dci.tbSize) :
    (transportDl ids ues rnti dci).isSome := by
  obtain ⟨rlcPduInfo, hPdus, -⟩ := hBlock.pdus
  have hSome : rlcPduInfo ≠ [] := by
    obtain ⟨row, rows, hRows⟩ := List.exists_cons_of_ne_nil hActive
    rw [hRows, List.mapM_cons] at hPdus
    obtain ⟨pdus, -, hPdus⟩ := Option.bind_eq_some_iff.mp hPdus
    obtain ⟨rest, -, hPdus⟩ := Option.bind_eq_some_iff.mp hPdus
    cases hPdus
    exact List.cons_ne_nil pdus rest
  simp only [bytesPerLcPerStream] at hPdus
  simp only [transportDl, hUe, hId, hPdus, Option.bind_eq_bind, Option.bind_some, if_neg hSome]
  rfl

end Shares

/-- 20 bytes for two channels, and nothing on the second stream. -/
theorem splitsBlock_two : SplitsBlock twoChannels [20, 0] := by
  have hKeys : UniqueKeys twoChannels := ⟨by decide +kernel, by decide +kernel⟩
  apply (splitsBlock_iff hKeys [20, 0]).mpr
  rw [List.forall_mem_cons, List.forall_mem_singleton]
  exact ⟨Or.inr (by decide +kernel), Or.inl (by decide +kernel)⟩

/-- Four channels with something to send. -/
def fourChannels : List NrMacSchedulerLCG :=
  [⟨0, [⟨1, 100, 0, 0, 0⟩, ⟨3, 100, 0, 0, 0⟩]⟩, ⟨1, [⟨4, 100, 0, 0, 0⟩, ⟨5, 100, 0, 0, 0⟩]⟩]

/-- Ten bytes for four channels fail the assertion on the size of a share. -/
theorem ten_bytes_fail : UniqueKeys fourChannels ∧
    (assignBytesToLC fourChannels 10).map rlcPdu = [none, none, none, none] ∧
      ¬ SplitsBlock fourChannels [10] := by
  refine ⟨⟨by decide +kernel, by decide +kernel⟩, by decide +kernel, ?_⟩
  intro hBlock
  have hUsable := (hBlock.split 10 (by simp)).usable ⟨0, 1, 2⟩ (by decide +kernel) (by decide +kernel)
  exact absurd hUsable (by decide +kernel)

end Bullet.Mac
