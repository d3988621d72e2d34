import Aquatic.Http.ConnectionHandles
import Aquatic.Swarm.PeerSelection
import Aquatic.Ws.ConnectionHandles
import Aquatic.Ws.SeederCount

/-!
# Deadlines of peers, offers and connections

Every cleaning pass asks of what it visits whether it is still valid and of nothing else
that has to do with time. So all of them are right about a deadline or none of them is.
-/

namespace Aquatic
open Collections Transition
open Swarm (PeerEntry PeerMap)
set_option autoImplicit false

theorem Swarm.PeerMap.Reachable.clean_spec {K P : Type} [DecidableEq K] [PeerEntry P] {cap : Nat}
    {m : PeerMap K P cap} (h : m.Reachable) (t : SecondsSinceServerStart) :
    ∃ numPeers m', m.cleanAndGetNumPeers t = some (numPeers, m') ∧
      ∀ k p, m.get k = some p →
        ((m'.get k).isSome = true ↔ (Swarm.validUntil p).valid t = true) := by
  have hm := h.wellFormed.refines
  obtain ⟨m', hm', hrefines⟩ := PeerMap.cleanAndGetNumPeers_refines hm t
  refine ⟨_, m', hm', ?_⟩
  intro k p hp
  rw [hrefines.peers]
  change ((m.get k).filter _).isSome = true ↔ _
  rw [hp, Option.isSome_filter, Option.any_some]

namespace Ws

theorem TorrentMaps.counted_of_reachable {config : Config} {maxScrapeTorrents : Nat}
    {m : TorrentMaps} (h : Reachable (step config maxScrapeTorrents) empty m) : m.Counted := by
  refine invariant_of_total ?_ counted_empty h
  intro s action hs
  obtain ⟨s', hstep, hcounted, -⟩ := handle_spec hs config maxScrapeTorrents action
  exact ⟨s', hstep, hcounted⟩

/-- A visited peer is kept with those of its offers that are still valid. -/
theorem TorrentData.clean_spec {d : TorrentData} (h : d.Counted) (t : SecondsSinceServerStart) :
    ∃ numPeers d', d.cleanAndGetNumPeers t = some (numPeers, d') ∧
      ∀ k p, d.peers.get k = some p →
        ((d'.peers.get k).isSome = true ↔ p.validUntil.valid t = true) ∧
        ∀ p', d'.peers.get k = some p' → ∀ e validUntil,
          p.expectingAnswers.get e = some validUntil →
            ((p'.expectingAnswers.get e).isSome = true ↔ validUntil.valid t = true) := by
  obtain ⟨d', hd', -, hpeers⟩ := TorrentData.cleanAndGetNumPeers_spec h t
  refine ⟨_, d', hd', ?_⟩
  intro k p hp
  rw [hpeers, hp, Option.bind_some]
  constructor
  · rw [TorrentData.isSome_cleanedPeer]
  · intro p' hp' e validUntil he
    obtain ⟨-, rfl⟩ := TorrentData.cleanedPeer_eq_some_iff.mp hp'
    rw [Peer.cleanAnswers, IndexMap.get_retain, he, Option.isSome_filter, Option.any_some]

end Ws

namespace ValidUntil

/-- What a deadline `offset` seconds after `now` promises: it is the time that the integers say,
it can be set at all, and it is over when that time has come and not before. -/
structure Exact (now : SecondsSinceServerStart) (offset : UInt32) : Prop where
  sum : (newWithNow now offset).instant.toNat = now.toNat + offset.toNat
  checked : newWithNowChecked now offset = some (newWithNow now offset)
  created : ∀ elapsed, secondsElapsed elapsed = some now → ∃ validUntil,
    new elapsed offset = some validUntil ∧
      validUntil.instant.toNat = elapsed.toNat + offset.toNat
  valid : ∀ t, (newWithNow now offset).valid t = true ↔ Ahead now offset t

/-- What has such a deadline is kept by the cleaning passes before its time, and is removed by
them from then on. -/
structure Kept (now : SecondsSinceServerStart) (offset : UInt32) : Prop where
  /-- Peers of the UDP and the HTTP tracker. -/
  peers : ∀ {K P : Type} [DecidableEq K] [PeerEntry P] {cap : Nat} {m : PeerMap K P cap},
    m.Reachable → ∀ t, ∃ numPeers m', m.cleanAndGetNumPeers t = some (numPeers, m') ∧
      ∀ k p, m.get k = some p → Swarm.validUntil p = newWithNow now offset →
        ((m'.get k).isSome = true ↔ Ahead now offset t)
  wsPeers : ∀ {config maxScrapeTorrents m ipVersion infoHash d},
    Reachable (Ws.TorrentMaps.step config maxScrapeTorrents) .empty m →
    (m.torrentMap ipVersion).torrents.get infoHash = some d →
    ∀ t, ∃ numPeers d', d.cleanAndGetNumPeers t = some (numPeers, d') ∧
      (∀ k p, d.peers.get k = some p → p.validUntil = newWithNow now offset →
        ((d'.peers.get k).isSome = true ↔ Ahead now offset t)) ∧
      ∀ k p p' e, d.peers.get k = some p → d'.peers.get k = some p' →
        p.expectingAnswers.get e = some (newWithNow now offset) →
          ((p'.expectingAnswers.get e).isSome = true ↔ Ahead now offset t)
  httpConnections : ∀ {slab : Http.ConnectionHandles} {id handle}, slab.get id = some handle →
    handle.validUntil = newWithNow now offset →
    ∀ t, ∃ kept told, Http.cleanConnections slab t = (kept, told) ∧
      ((kept.get id).isSome = true ↔ Ahead now offset t) ∧ (id ∈ told ↔ ¬Ahead now offset t)
  /-- A connection has one or two deadlines, and the earlier one decides. -/
  wsConnections : ∀ {slab : Ws.ConnectionHandles} {id handle}, slab.get id = some handle →
    ∀ t clock optTlsConfig gracePeriod, ∃ kept told,
      Ws.cleanConnections slab t clock optTlsConfig gracePeriod = (kept, told) ∧
        ((kept.get id).isSome = true ↔ id ∉ told) ∧
        (handle.validUntil = newWithNow now offset →
          (∀ v, handle.validUntilAfterTlsUpdate = some v → v.valid t = true) →
            ((kept.get id).isSome = true ↔ Ahead now offset t)) ∧
        (handle.validUntilAfterTlsUpdate = some (newWithNow now offset) →
          handle.validUntil.valid t = true →
            ((kept.get id).isSome = true ↔ Ahead now offset t))

variable {now : SecondsSinceServerStart} {offset : UInt32}

theorem exact_of_lt (h : now.toNat + offset.toNat < UInt32.size) : Exact now offset where
  sum := toNat_newWithNow h
  checked := if_pos h
  created elapsed helapsed := by
    refine ⟨newWithNow now offset, ?_, ?_⟩
    · rw [new, helapsed, Option.map_some]
    · rw [toNat_newWithNow h, toNat_secondsElapsed helapsed]
  valid := valid_newWithNow_iff h

theorem Exact.kept (h : Exact now offset) : Kept now offset where
  peers hm t := by
    obtain ⟨numPeers, m', hm', hkept⟩ := hm.clean_spec t
    refine ⟨numPeers, m', hm', ?_⟩
    intro k p hp hvalid
    rw [hkept k p hp, hvalid, h.valid]
  wsPeers hm hd t := by
    obtain ⟨numPeers, d', hd', hkept⟩ :=
      Ws.TorrentData.clean_spec (Ws.TorrentMaps.counted_of_reachable hm _ hd) t
    refine ⟨numPeers, d', hd', ?_, ?_⟩
    · intro k p hp hvalid
      rw [(hkept k p hp).1, hvalid, h.valid]
    · intro k p p' e hp hp' he
      rw [(hkept k p hp).2 p' hp' e _ he, h.valid]
  httpConnections hget hvalid t := by
    obtain ⟨kept, told, heq, hkept, htold⟩ := Http.cleanConnections_spec hget t
    rw [hvalid, h.valid] at hkept htold
    exact ⟨kept, told, heq, hkept, htold⟩
  wsConnections hget t clock optTlsConfig gracePeriod := by
    obtain ⟨kept, told, heq, hkept, htold⟩ :=
      Ws.cleanConnections_spec hget t clock optTlsConfig gracePeriod
    refine ⟨kept, told, heq, ?_, ?_, ?_⟩
    · rw [hkept, htold, not_not]
    · intro hvalid htls
      rw [hkept, Ws.ConnectionHandle.Lasts, hvalid, h.valid]
      exact and_iff_left htls
    · intro htls hvalid
      rw [hkept, Ws.ConnectionHandle.Lasts, htls]
      simp [hvalid, h.valid]

/-- A deadline that wraps is already wrong when it is set. -/
theorem Exact.lt (h : Exact now offset) : now.toNat + offset.toNat < UInt32.size :=
  (valid_iff_ahead_iff (UInt32.le_refl now)).mp (h.valid now)

/-- For every time and every age that a config can set: deadlines are exact, and what has them
is kept until its time, if and only if the sum is below `2 ^ 32`. -/
theorem deadline_exact_iff_fits (now : SecondsSinceServerStart) (offset : UInt32) :
    Exact now offset ∧ Kept now offset ↔ now.toNat + offset.toNat < UInt32.size := by
  constructor
  · rintro ⟨hexact, -⟩
    exact hexact.lt
  · intro h
    exact ⟨exact_of_lt h, (exact_of_lt h).kept⟩

/-- Peers that are to be kept for as long as a config can say, one second after the start. -/
theorem not_exact_one_max : ¬(Exact 1 0xffffffff ∧ Kept 1 0xffffffff) := by
  rintro ⟨hexact, -⟩
  have hvalid := (hexact.valid 1).mpr (by unfold Ahead; decide)
  exact absurd hvalid (by decide)

end ValidUntil

end Aquatic
