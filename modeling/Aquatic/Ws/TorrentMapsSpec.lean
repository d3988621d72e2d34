import Aquatic.Ws.StorageSpec

/-!
# What the operations do to the peers of both torrent maps
-/

namespace Aquatic.Ws
open Collections
set_option autoImplicit false

namespace TorrentMap

def peer (m : TorrentMap) (infoHash : InfoHash) (k : PeerId) : Option Peer :=
  (m.torrents.get infoHash).bind fun d => d.peers.get k

def Counted (m : TorrentMap) : Prop := ∀ {infoHash d}, m.torrents.get infoHash = some d → d.Counted

theorem peer_of_get {m : TorrentMap} {infoHash : InfoHash} {d : TorrentData}
    (h : m.torrents.get infoHash = some d) : m.peer infoHash = d.peers.get := by
  funext k
  rw [peer, h, Option.bind_some]

theorem counted_insert {m : TorrentMap} (h : m.Counted) (infoHash : InfoHash) {d : TorrentData}
    (hd : d.Counted) : Counted ⟨m.torrents.insert infoHash d⟩ := by
  intro infoHash' d' hd'
  rw [IndexMap.get_insert] at hd'
  split at hd'
  · cases hd'
    exact hd
  · exact h hd'

theorem peer_insert (m : TorrentMap) (infoHash : InfoHash) (d : TorrentData)
    (infoHash' : InfoHash) :
    peer ⟨m.torrents.insert infoHash d⟩ infoHash' =
      if infoHash' = infoHash then d.peers.get else m.peer infoHash' := by
  funext k
  rw [peer, IndexMap.get_insert]
  split <;> rfl

/-- The two ways an announce goes: ignored without a trace, or accepted. -/
inductive Handled (config : Config) (now : SecondsSinceServerStart) (metadata : InMessageMeta)
    (request : AnnounceRequest) (m m' : TorrentMap) (a : Announced) : Prop where
  | ignored (p : Peer) (hp : m.peer request.infoHash request.peerId = some p)
      (hne : p.connectionId ≠ metadata.connectionId) (same : m' = m) (silent : a = ⟨[], []⟩)
  | accepted
      (own : ∀ p, m.peer request.infoHash request.peerId = some p →
        p.connectionId = metadata.connectionId)
      (others : ∀ h, h ≠ request.infoHash → m'.peer h = m.peer h)
      (accepted : TorrentData.Accepted config now metadata request (m.peer request.infoHash)
        (m'.peer request.infoHash) a)

theorem handleAnnounceRequest_spec {m : TorrentMap} (h : m.Counted) (config : Config) (rng : Rng)
    (now : SecondsSinceServerStart) (metadata : InMessageMeta) (request : AnnounceRequest) :
    ∃ a m' rng', m.handleAnnounceRequest config rng now metadata request = some (a, m', rng') ∧
      m'.Counted ∧ Handled config now metadata request m m' a := by
  have hd : ((m.torrents.get request.infoHash).getD TorrentData.empty).Counted := by
    cases hd : m.torrents.get request.infoHash with
    | none => rfl
    | some d => exact h hd
  have hpeer : m.peer request.infoHash =
      ((m.torrents.get request.infoHash).getD TorrentData.empty).peers.get := by
    cases hd : m.torrents.get request.infoHash with
    | none =>
      funext k
      rw [peer, hd]
      rfl
    | some d => exact peer_of_get hd
  by_cases hown : ∀ p, m.peer request.infoHash request.peerId = some p →
      p.connectionId = metadata.connectionId
  · have hown' := hown
    rw [hpeer] at hown'
    obtain ⟨a, d', rng', hd', hcounted, haccepted⟩ :=
      TorrentData.handleAnnounceRequest_accepted hd config rng now metadata request hown'
    refine ⟨a, ⟨m.torrents.insert request.infoHash d'⟩, rng',
      by simp only [handleAnnounceRequest, hd']; rfl, counted_insert h _ hcounted,
      .accepted hown ?_ ?_⟩
    · intro infoHash hne
      rw [peer_insert, if_neg hne]
    · rw [peer_insert, if_pos rfl, hpeer]
      exact haccepted
  · obtain ⟨p, hp⟩ := not_forall.mp hown
    obtain ⟨hp, hne⟩ := Classical.not_imp.mp hp
    cases hget : m.torrents.get request.infoHash with
    | none =>
      rw [peer, hget] at hp
      cases hp
    | some d =>
      have hpd := hp
      rw [peer_of_get hget] at hpd
      have hignored := TorrentData.handleAnnounceRequest_ignored hpd hne config rng now
      refine ⟨⟨[], []⟩, m, rng, ?_, h, .ignored p hp hne rfl rfl⟩
      simp only [handleAnnounceRequest, hget, Option.getD_some, hignored, Option.bind_eq_bind,
        Option.bind_some, IndexMap.insert_eq_self hget]
      rfl

theorem handleConnectionClosed_spec {m : TorrentMap} (h : m.Counted) (infoHash : InfoHash)
    (peerId : PeerId) :
    ∃ m', m.handleConnectionClosed infoHash peerId = some m' ∧ m'.Counted ∧
      ∀ h k, m'.peer h k = if h = infoHash ∧ k = peerId then none else m.peer h k := by
  unfold handleConnectionClosed
  cases hd : m.torrents.get infoHash with
  | none =>
    refine ⟨m, rfl, h, ?_⟩
    intro h' k
    split
    · rename_i hk
      rw [peer, hk.1, hd]
      rfl
    · rfl
  | some d =>
    obtain ⟨d', hd', hcounted, hget⟩ := TorrentData.handleConnectionClosed_spec (h hd) peerId
    refine ⟨_, by simp only [hd']; rfl, counted_insert h _ hcounted, ?_⟩
    intro h' k
    rw [peer_insert]
    by_cases hh : h' = infoHash
    · subst hh
      rw [if_pos rfl, hget, peer_of_get hd]
      simp
    · rw [if_neg hh, if_neg fun hk => hh hk.1]

theorem cleanOne_spec {d : TorrentData} (h : d.Counted) (config : Config) (accessList : AccessList)
    (now : SecondsSinceServerStart) (infoHash : InfoHash) :
    ∃ o, cleanOne config accessList now infoHash d = some o ∧ (∀ d', o = some d' → d'.Counted) ∧
      ∀ k, (o.bind fun d' => d'.peers.get k) = if accessList.allows config.accessListMode infoHash
        then (d.peers.get k).bind (TorrentData.cleanedPeer now) else none := by
  obtain ⟨d', hd', hcounted, hget⟩ := TorrentData.cleanAndGetNumPeers_spec h now
  unfold cleanOne
  cases accessList.allows config.accessListMode infoHash with
  | false => exact ⟨none, rfl, nofun, fun k => rfl⟩
  | true =>
    by_cases hpos : d'.peers.len > 0
    · refine ⟨some d', by simp [hd', hpos], ?_, hget⟩
      intro d'' hd''
      cases hd''
      exact hcounted
    · refine ⟨none, by simp [hd', hpos], nofun, ?_⟩
      intro k
      have hempty : d'.peers.isEmpty := by
        have hlen : d'.peers.entries.length = 0 := Nat.eq_zero_of_not_pos hpos
        simpa [IndexMap.isEmpty] using hlen
      have hnone := (IndexMap.isEmpty_iff d'.peers).mp hempty k
      rw [hget k] at hnone
      simp [hnone]

theorem clean_spec {m : TorrentMap} (h : m.Counted) (config : Config) (accessList : AccessList)
    (now : SecondsSinceServerStart) :
    ∃ m', m.clean config accessList now = some m' ∧ m'.Counted ∧
      ∀ h k, m'.peer h k = if accessList.allows config.accessListMode h
        then (m.peer h k).bind (TorrentData.cleanedPeer now) else none := by
  have hall : ∀ infoHash d, m.torrents.get infoHash = some d →
      ∃ o, cleanOne config accessList now infoHash d = some o := by
    intro infoHash d hd
    obtain ⟨o, ho, -⟩ := cleanOne_spec (h hd) config accessList now infoHash
    exact ⟨o, ho⟩
  refine ⟨_, by simp only [clean, IndexMap.filterMapM_eq hall]; rfl, ?_, ?_⟩
  · intro infoHash d' hd'
    rw [IndexMap.get_filterMap] at hd'
    obtain ⟨d, hd, hvisit⟩ := Option.bind_eq_some_iff.mp hd'
    obtain ⟨o, ho, hcounted, -⟩ := cleanOne_spec (h hd) config accessList now infoHash
    rw [ho] at hvisit
    exact hcounted d' hvisit
  · intro infoHash k
    rw [peer, peer, IndexMap.get_filterMap]
    cases hd : m.torrents.get infoHash with
    | none => simp
    | some d =>
      obtain ⟨o, ho, -, hget⟩ := cleanOne_spec (h hd) config accessList now infoHash
      rw [Option.bind_some, ho]
      exact hget k

end TorrentMap

namespace TorrentMaps

def peer (m : TorrentMaps) (ipVersion : IpVersion) (infoHash : InfoHash) (k : PeerId) :
    Option Peer := (m.torrentMap ipVersion).peer infoHash k

def Counted (m : TorrentMaps) : Prop := ∀ ipVersion, (m.torrentMap ipVersion).Counted

theorem counted_empty : TorrentMaps.empty.Counted := by
  intro ipVersion infoHash d hd
  cases ipVersion <;> cases hd

@[simp] theorem torrentMap_setTorrentMap (m : TorrentMaps) (ipVersion : IpVersion)
    (map : TorrentMap) (ipVersion' : IpVersion) :
    (m.setTorrentMap ipVersion map).torrentMap ipVersion' =
      if ipVersion' = ipVersion then map else m.torrentMap ipVersion' := by
  cases ipVersion <;> cases ipVersion' <;> rfl

theorem eq_of_torrentMap {m m' : TorrentMaps}
    (h : ∀ ipVersion, m'.torrentMap ipVersion = m.torrentMap ipVersion) : m' = m := by
  have h₄ := h .v4
  have h₆ := h .v6
  cases m
  cases m'
  simp only [torrentMap] at h₄ h₆
  rw [h₄, h₆]

theorem eq_of_frame {m m' : TorrentMaps} {ipVersion : IpVersion}
    (hframe : ∀ other, other ≠ ipVersion → m'.torrentMap other = m.torrentMap other)
    (hsame : m'.torrentMap ipVersion = m.torrentMap ipVersion) : m' = m := by
  apply eq_of_torrentMap
  intro other
  by_cases hother : other = ipVersion
  · rw [hother, hsame]
  · exact hframe other hother

theorem counted_setTorrentMap {m : TorrentMaps} (h : m.Counted) (ipVersion : IpVersion)
    {map : TorrentMap} (hmap : map.Counted) : (m.setTorrentMap ipVersion map).Counted := by
  intro ipVersion'
  rw [torrentMap_setTorrentMap]
  split
  · exact hmap
  · exact h ipVersion'

theorem handleAnnounceRequest_spec {m : TorrentMaps} (h : m.Counted) (config : Config) (rng : Rng)
    (now : SecondsSinceServerStart) (metadata : InMessageMeta) (request : AnnounceRequest) :
    ∃ a m' rng', m.handleAnnounceRequest config rng now metadata request = some (a, m', rng') ∧
      m'.Counted ∧
      (∀ ipVersion, ipVersion ≠ metadata.ipVersion →
        m'.torrentMap ipVersion = m.torrentMap ipVersion) ∧
      TorrentMap.Handled config now metadata request (m.torrentMap metadata.ipVersion)
        (m'.torrentMap metadata.ipVersion) a := by
  obtain ⟨a, map, rng', hmap, hcounted, hhandled⟩ := TorrentMap.handleAnnounceRequest_spec
    (h metadata.ipVersion) config rng now metadata request
  refine ⟨a, m.setTorrentMap metadata.ipVersion map, rng',
    by simp only [handleAnnounceRequest, hmap]; rfl, counted_setTorrentMap h _ hcounted, ?_, ?_⟩
  · intro ipVersion hne
    rw [torrentMap_setTorrentMap, if_neg hne]
  · rw [torrentMap_setTorrentMap, if_pos rfl]
    exact hhandled

theorem handleConnectionClosed_spec {m : TorrentMaps} (h : m.Counted) (infoHash : InfoHash)
    (peerId : PeerId) (ipVersion : IpVersion) :
    ∃ m', m.handleConnectionClosed infoHash peerId ipVersion = some m' ∧ m'.Counted ∧
      ∀ ip h k, m'.peer ip h k =
        if ip = ipVersion ∧ h = infoHash ∧ k = peerId then none else m.peer ip h k := by
  obtain ⟨map, hmap, hcounted, hpeer⟩ :=
    TorrentMap.handleConnectionClosed_spec (h ipVersion) infoHash peerId
  refine ⟨m.setTorrentMap ipVersion map, by simp only [handleConnectionClosed, hmap]; rfl,
    counted_setTorrentMap h _ hcounted, ?_⟩
  intro ip h' k
  rw [peer, peer, torrentMap_setTorrentMap]
  by_cases hip : ip = ipVersion
  · subst hip
    rw [if_pos rfl, hpeer]
    simp
  · simp [hip]

theorem clean_spec {m : TorrentMaps} (h : m.Counted) (config : Config) (accessList : AccessList)
    (now : SecondsSinceServerStart) :
    ∃ m', m.clean config accessList now = some m' ∧ m'.Counted ∧
      ∀ ip h k, m'.peer ip h k = if accessList.allows config.accessListMode h
        then (m.peer ip h k).bind (TorrentData.cleanedPeer now) else none := by
  obtain ⟨map₄, hmap₄, hcounted₄, hpeer₄⟩ := TorrentMap.clean_spec (h .v4) config accessList now
  obtain ⟨map₆, hmap₆, hcounted₆, hpeer₆⟩ := TorrentMap.clean_spec (h .v6) config accessList now
  simp only [torrentMap] at hmap₄ hmap₆
  refine ⟨⟨map₄, map₆⟩, by simp only [clean, hmap₄, hmap₆]; rfl, ?_, ?_⟩
  · intro ipVersion
    cases ipVersion with
    | v4 => exact hcounted₄
    | v6 => exact hcounted₆
  · intro ip
    cases ip with
    | v4 => exact hpeer₄
    | v6 => exact hpeer₆

end TorrentMaps

end Aquatic.Ws
