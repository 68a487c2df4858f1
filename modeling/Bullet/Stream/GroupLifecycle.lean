import Bullet.Stream.PacketReceiver

/-! # Lifecycle of the receiver's packet groups

A group is incomplete, complete or timed out, and a finished group stays finished, as long as no
packet arrives for a finished group: such a packet opens the group a second time.
-/

namespace Bullet.Stream.PacketReceiverUdp

open Lib.PartialRun

variable {begin : FirstEntry} {r r' t u : PacketReceiverUdp} {a : PacketArrival} {id : UInt32}

/-- No group id is in two of the sets. -/
structure Apart (r : PacketReceiverUdp) : Prop where
  incomplete : ∀ {id}, id ∈ r.incompleteGroups → ¬ r.Finished id
  complete : ∀ {id}, id ∈ r.completeGroups → id ∉ r.timeoutGroups

structure SameSets (r r' : PacketReceiverUdp) : Prop where
  incomplete : ∀ id, id ∈ r'.incompleteGroups ↔ id ∈ r.incompleteGroups
  complete : ∀ id, id ∈ r'.completeGroups ↔ id ∈ r.completeGroups
  timeout : ∀ id, id ∈ r'.timeoutGroups ↔ id ∈ r.timeoutGroups

/-- What holds of the sets in every state of a run, between two states of it, and at every arrival
for a finished group. -/
structure Lifecycle (begin : FirstEntry) (r : PacketReceiverUdp) (l : List PacketArrival) :
    Prop where
  apart : ∀ p q, l = p ++ q → ∀ t, run (receiveUdpPacket begin) r p = some t → t.Apart
  closed : ∀ p m q, l = p ++ m ++ q → ∀ t u, run (receiveUdpPacket begin) r p = some t →
    run (receiveUdpPacket begin) t m = some u → ∀ id, t.Finished id → id ∉ u.incompleteGroups
  late : ∀ p a q, l = p ++ a :: q → ∀ t u, run (receiveUdpPacket begin) r p = some t →
    receiveUdpPacket begin t a = some u → t.Finished a.groupId → SameSets t u

/-- The keys of the incomplete groups are the ids of the groups. -/
def Keyed (r : PacketReceiverUdp) : Prop :=
  ∀ entry ∈ r.incompleteGroups.entries, entry.2.groupId = entry.1

theorem countPacket_groupId (g : PacketGroup) (pkt : VideoPacket) :
    (g.countPacket pkt).groupId = g.groupId := by
  unfold PacketGroup.countPacket
  split
  · cases pkt <;> rfl
  · cases pkt <;> rfl

theorem recordPacket_groupId (g : PacketGroup) (pkt : VideoPacket) :
    (g.recordPacket pkt).groupId = g.groupId := by
  rw [PacketGroup.recordPacket]
  split
  · exact countPacket_groupId (g.initGroup pkt) pkt
  · exact countPacket_groupId g pkt

theorem addPacket_groupId {g g' : PacketGroup} {pkt : VideoPacket} {now : Time}
    (h : g.addPacket begin pkt now = some g') : g'.groupId = g.groupId := by
  simp only [PacketGroup.addPacket] at h
  split at h
  · cases h
    exact recordPacket_groupId g pkt
  · obtain ⟨b, -, h⟩ := Option.bind_eq_some_iff.mp h
    obtain ⟨⟨complete, b'⟩, -, h⟩ := Option.bind_eq_some_iff.mp h
    cases h
    rw [← recordPacket_groupId g pkt]
    cases complete with
    | true => rfl
    | false => rfl

theorem groupOf_groupId (hKeyed : r.Keyed) (pkt : VideoPacket) :
    (r.groupOf pkt).groupId = pkt.header.groupId := by
  rw [groupOf]
  split
  · rfl
  · next group hLookup => exact hKeyed ⟨_, group⟩ (AList.mem_lookup_iff.mp hLookup)

/-- What storing a packet does to the sets. -/
structure Stores (r : PacketReceiverUdp) (groupId : UInt32) (group : PacketGroup)
    (r' : PacketReceiverUdp) : Prop where
  incomplete : r'.incompleteGroups = r.incompleteGroups.insert groupId group
  complete : r'.completeGroups = r.completeGroups
  timeout : r'.timeoutGroups = r.timeoutGroups
  groupId : r.Keyed → group.groupId = groupId

theorem storePacket_stores {group : PacketGroup}
    (h : r.storePacket begin a = some (group, r')) : Stores r a.groupId group r' := by
  obtain ⟨added, hAdd, h⟩ := Option.bind_eq_some_iff.mp h
  obtain ⟨decoder, -, h⟩ := Option.bind_eq_some_iff.mp h
  cases h
  refine ⟨rfl, rfl, rfl, fun hKeyed => ?_⟩
  calc added.getUndecodedPackets.2.groupId = added.groupId := rfl
    _ = (r.groupOf a.pkt).groupId := addPacket_groupId hAdd
    _ = a.groupId := groupOf_groupId hKeyed a.pkt

theorem Stores.finished {groupId : UInt32} {group : PacketGroup} (h : Stores r groupId group r') :
    r'.Finished id ↔ r.Finished id := by
  rw [Finished, h.complete, h.timeout, Finished]

theorem Stores.apart {groupId : UInt32} {group : PacketGroup} (h : Stores r groupId group r')
    (hApart : r.Apart) (hOpen : ¬ r.Finished groupId) : r'.Apart where
  incomplete := by
    intro id hMem
    rw [h.finished]
    rw [h.incomplete, AList.mem_insert] at hMem
    obtain rfl | hMem := hMem
    · exact hOpen
    · exact hApart.incomplete hMem
  complete := by
    intro id hMem
    rw [h.timeout]
    rw [h.complete] at hMem
    exact hApart.complete hMem

theorem Stores.keyed {groupId : UInt32} {group : PacketGroup} (h : Stores r groupId group r')
    (hKeyed : r.Keyed) : r'.Keyed := by
  intro entry hMem
  rw [h.incomplete, AList.entries_insert, List.mem_cons] at hMem
  obtain rfl | hMem := hMem
  · exact h.groupId hKeyed
  · exact hKeyed entry (List.kerase_sublist _ _ |>.subset hMem)

/-- The sets are apart and keyed, and finished groups stay finished. -/
structure Progress (r r' : PacketReceiverUdp) : Prop where
  apart : r'.Apart
  keyed : r'.Keyed
  finished : ∀ {id}, r.Finished id → r'.Finished id

theorem checkGroup_progress {group : PacketGroup} (hApart : r.Apart) (hKeyed : r.Keyed)
    (hMem : id ∈ r.incompleteGroups) (h : r.checkGroup id group = some r') : Progress r r' := by
  rw [checkGroup] at h
  split at h
  · obtain ⟨interval, -, h⟩ := Option.bind_eq_some_iff.mp h
    cases h
    refine ⟨⟨?_, ?_⟩, ?_, ?_⟩
    · intro id' hMem'
      rw [AList.mem_erase] at hMem'
      rintro (hComplete | hTimeout)
      · obtain rfl | hComplete := (AList.mem_insert _).mp hComplete
        · exact hMem'.1 rfl
        · exact hApart.incomplete hMem'.2 (Or.inl hComplete)
      · exact hApart.incomplete hMem'.2 (Or.inr hTimeout)
    · intro id' hMem'
      obtain rfl | hMem' := (AList.mem_insert _).mp hMem'
      · exact fun hTimeout => hApart.incomplete hMem (Or.inr hTimeout)
      · exact hApart.complete hMem'
    · intro entry hEntry
      exact hKeyed entry ((List.kerase_sublist _ _).subset hEntry)
    · rintro id' (hComplete | hTimeout)
      · exact Or.inl ((AList.mem_insert _).mpr (Or.inr hComplete))
      · exact Or.inr hTimeout
  · cases h
    exact ⟨hApart, hKeyed, fun h => h⟩

theorem expireGroup_progress {entry : Σ _ : UInt32, PacketGroup} (rcvTime : Time)
    (hApart : r.Apart) (hKeyed : r.Keyed) (hKey : entry.2.groupId = entry.1)
    (hOpen : entry.1 ∉ r.completeGroups) : Progress r (r.expireGroup rcvTime entry) := by
  rw [expireGroup]
  split
  · refine ⟨⟨?_, ?_⟩, ?_, ?_⟩
    · intro id' hMem
      rw [AList.mem_erase] at hMem
      rintro (hComplete | hTimeout)
      · exact hApart.incomplete hMem.2 (Or.inl hComplete)
      · obtain hEq | hTimeout := (AList.mem_insert _).mp hTimeout
        · exact hMem.1 (hEq.trans hKey)
        · exact hApart.incomplete hMem.2 (Or.inr hTimeout)
    · intro id' hComplete hTimeout
      obtain rfl | hTimeout := (AList.mem_insert _).mp hTimeout
      · rw [hKey] at hComplete
        exact hOpen hComplete
      · exact hApart.complete hComplete hTimeout
    · intro entry' hEntry
      exact hKeyed entry' ((List.kerase_sublist _ _).subset hEntry)
    · rintro id' (hComplete | hTimeout)
      · exact Or.inl hComplete
      · exact Or.inr ((AList.mem_insert _).mpr (Or.inr hTimeout))
  · exact ⟨hApart, hKeyed, fun h => h⟩

theorem expireGroup_completeGroups (rcvTime : Time) (entry : Σ _ : UInt32, PacketGroup) :
    (r.expireGroup rcvTime entry).completeGroups = r.completeGroups := by
  rw [expireGroup]
  split
  · rfl
  · rfl

theorem foldl_expireGroup_progress (rcvTime : Time) {entries : List (Σ _ : UInt32, PacketGroup)}
    (hApart : r.Apart) (hKeyed : r.Keyed)
    (hEntries : ∀ entry ∈ entries, entry.2.groupId = entry.1 ∧ entry.1 ∉ r.completeGroups) :
    Progress r (entries.foldl (expireGroup rcvTime) r) := by
  induction entries generalizing r with
  | nil => exact ⟨hApart, hKeyed, fun h => h⟩
  | cons entry entries ih =>
    obtain ⟨hKey, hOpen⟩ := hEntries entry List.mem_cons_self
    have hFirst := expireGroup_progress rcvTime hApart hKeyed hKey hOpen
    have hRest := ih hFirst.apart hFirst.keyed fun entry' hMem => by
      rw [expireGroup_completeGroups]
      exact hEntries entry' (List.mem_cons_of_mem entry hMem)
    exact ⟨hRest.apart, hRest.keyed, fun h => hRest.finished (hFirst.finished h)⟩

theorem expireGroups_progress (rcvTime : Time) (hApart : r.Apart) (hKeyed : r.Keyed) :
    Progress r (r.expireGroups rcvTime) := by
  apply foldl_expireGroup_progress rcvTime hApart hKeyed
  intro entry hMem
  refine ⟨hKeyed entry hMem, fun hComplete => ?_⟩
  exact hApart.incomplete (List.mem_map_of_mem hMem) (Or.inl hComplete)

/-- The packet is stored, and a group that is not finished is checked and the deadlines are. -/
theorem receive_cases (h : r.receiveUdpPacket begin a = some r') :
    ∃ group s, Stores r a.groupId group s ∧
      ((r.Finished a.groupId ∧ r' = s) ∨
        (¬ r.Finished a.groupId ∧ ∃ t, s.checkGroup a.groupId group = some t ∧
          r' = t.expireGroups a.pkt.header.rcvTime)) := by
  obtain ⟨⟨group, s⟩, hStore, h⟩ := Option.bind_eq_some_iff.mp h
  have hStores := storePacket_stores hStore
  refine ⟨group, s, hStores, ?_⟩
  dsimp only at h
  split at h
  · next hFinished =>
    cases h
    exact Or.inl ⟨hStores.finished.mp hFinished, rfl⟩
  · next hOpen =>
    obtain ⟨t, hCheck, h⟩ := Option.bind_eq_some_iff.mp h
    cases h
    exact Or.inr ⟨hStores.finished.not.mp hOpen, t, hCheck, rfl⟩

theorem Stores.mem {groupId : UInt32} {group : PacketGroup} (h : Stores r groupId group r') :
    groupId ∈ r'.incompleteGroups := by
  rw [h.incomplete]
  exact (AList.mem_insert _).mpr (Or.inl rfl)

theorem receive_progress (hApart : r.Apart) (hKeyed : r.Keyed) (hOpen : ¬ r.Finished a.groupId)
    (h : r.receiveUdpPacket begin a = some r') : Progress r r' := by
  obtain ⟨group, s, hStores, ⟨hLate, -⟩ | ⟨-, t, hCheck, rfl⟩⟩ := receive_cases h
  · exact (hOpen hLate).elim
  · have hGroup := checkGroup_progress (hStores.apart hApart hOpen) (hStores.keyed hKeyed)
      hStores.mem hCheck
    have hExpire := expireGroups_progress a.pkt.header.rcvTime hGroup.apart hGroup.keyed
    exact ⟨hExpire.apart, hExpire.keyed,
      fun h => hExpire.finished (hGroup.finished (hStores.finished.mpr h))⟩

/-- A packet for a finished group opens the group again. -/
theorem receive_late (hLate : r.Finished a.groupId) (h : r.receiveUdpPacket begin a = some r') :
    a.groupId ∈ r'.incompleteGroups := by
  obtain ⟨group, s, hStores, ⟨-, rfl⟩ | ⟨hOpen, -⟩⟩ := receive_cases h
  · exact hStores.mem
  · exact (hOpen hLate).elim

theorem run_progress {l : List PacketArrival} (hApart : r.Apart) (hKeyed : r.Keyed)
    (hOk : StepsMeet (receiveUdpPacket begin) (fun s a => ¬ s.Finished a.groupId) r l)
    (hRun : run (receiveUdpPacket begin) r l = some r') : Progress r r' := by
  apply invariant_of_run _ ⟨hApart, hKeyed, fun h => h⟩ hOk hRun
  intro s a t hInv hOpen hStep
  have hNext := receive_progress hInv.apart hInv.keyed hOpen hStep
  exact ⟨hNext.apart, hNext.keyed, fun h => hNext.finished (hInv.finished h)⟩

theorem create_apart (delayDdl : Time) (decoder : VideoDecoder) :
    (create delayDdl decoder).Apart where
  incomplete := fun h => (AList.notMem_empty _ h).elim
  complete := fun h => (AList.notMem_empty _ h).elim

/-- The lifecycle holds of a run exactly when no packet of the run arrives for a finished group. -/
theorem lifecycle_iff (begin : FirstEntry) (delayDdl : Time) (decoder : VideoDecoder)
    (l : List PacketArrival) (r : PacketReceiverUdp)
    (hRun : run (receiveUdpPacket begin) (create delayDdl decoder) l = some r) :
    Lifecycle begin (create delayDdl decoder) l ↔
      StepsMeet (receiveUdpPacket begin) (fun s a => ¬ s.Finished a.groupId)
        (create delayDdl decoder) l := by
  constructor
  · intro hLife
    apply stepsMeet_iff_forall_append.mpr
    rintro p a q rfl t hPrefix hLate
    rw [run_append, hPrefix, Option.bind_some, run_cons] at hRun
    obtain ⟨u, hStep, -⟩ := Option.bind_eq_some_iff.mp hRun
    have hApart := hLife.apart p (a :: q) rfl t hPrefix
    have hSame := hLife.late p a q rfl t u hPrefix hStep hLate
    exact hApart.incomplete ((hSame.incomplete _).mp (receive_late hLate hStep)) hLate
  · intro hOk
    have hPrefix : ∀ p q, l = p ++ q → ∀ t,
        run (receiveUdpPacket begin) (create delayDdl decoder) p = some t →
        Progress (create delayDdl decoder) t := by
      rintro p q rfl t hRun
      exact run_progress (create_apart delayDdl decoder) (fun _ hMem => (List.not_mem_nil hMem).elim)
        (stepsMeet_append.mp hOk).1 hRun
    refine ⟨fun p q hEq t hRun => (hPrefix p q hEq t hRun).apart, ?_, ?_⟩
    · rintro p m q rfl t u hFirst hNext id hFinished hMem
      have hStart := hPrefix p (m ++ q) (List.append_assoc p m q) t hFirst
      rw [List.append_assoc] at hOk
      have hMiddle := (stepsMeet_append.mp ((stepsMeet_append.mp hOk).2 t hFirst)).1
      have hEnd := run_progress hStart.apart hStart.keyed hMiddle hNext
      exact hEnd.apart.incomplete hMem (hEnd.finished hFinished)
    · rintro p a q rfl t u hFirst - hLate
      exact absurd hLate ( stepsMeet_iff_forall_append.mp hOk p a q rfl t hFirst)

/-- The arrival of the first data packet of a group. -/
def firstArrival (groupId : UInt32) (dataNum : UInt16) (rcvTime : Time) : PacketArrival where
  pkt := .data { DataPacket.ofFrame groupId dataNum 0 rcvTime with
    groupId := groupId
    groupDataNum := dataNum
    batchDataNum := dataNum }
  globalId := 0
  now := rcvTime

/-- Group 0 completes, and the packet of group 2 comes past the deadline of group 1. -/
theorem lifecycle_timeout :
    ∃ decoder r, VideoDecoder.create (milliSeconds 100) 60 = some decoder ∧
      run (receiveUdpPacket .newest) (create (milliSeconds 100) decoder)
        [firstArrival 0 1 0, firstArrival 1 2 0, firstArrival 2 2 (milliSeconds 101)] = some r ∧
      1 ∈ r.timeoutGroups ∧
      Lifecycle .newest (create (milliSeconds 100) decoder)
        [firstArrival 0 1 0, firstArrival 1 2 0, firstArrival 2 2 (milliSeconds 101)] := by
  refine ⟨_, _, rfl, rfl, by decide, ?_⟩
  exact (lifecycle_iff .newest (milliSeconds 100) _ _ _ rfl).mpr (by decide)

/-- The packet of the complete group 0 arrives once more. -/
theorem complete_group_reopened :
    ∃ decoder r, VideoDecoder.create (milliSeconds 100) 60 = some decoder ∧
      run (receiveUdpPacket .newest) (create (milliSeconds 100) decoder)
        [firstArrival 0 1 0, firstArrival 0 1 0] = some r ∧
      0 ∈ r.completeGroups ∧ 0 ∈ r.incompleteGroups ∧
      ¬ Lifecycle .newest (create (milliSeconds 100) decoder)
        [firstArrival 0 1 0, firstArrival 0 1 0] := by
  refine ⟨_, _, rfl, rfl, by decide, by decide, fun h => ?_⟩
  have hApart := h.apart _ [] (List.append_nil _).symm _ rfl
  exact @hApart.incomplete 0 (by decide) (Or.inl (by decide))

end Bullet.Stream.PacketReceiverUdp
