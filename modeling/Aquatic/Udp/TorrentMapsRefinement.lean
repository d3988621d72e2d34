import Aquatic.Udp.LostAnnounces
import Aquatic.Udp.TorrentMaps

/-!
# An announce that nothing interrupts

The shards that one request finds are those of the sharded map with its locks, seen
between two steps of other threads. Where the two steps of an announce follow each
other, they do what the announce of the shards does.
-/

namespace Aquatic.Udp
open Collections
set_option autoImplicit false

variable {I : Type} [DecidableEq I]

namespace SoundPeerMap

theorem announce_eq (config : Config) (m : SoundPeerMap I) (rng : Rng)
    (request : Udp.AnnounceRequest) (ipAddress : I) (validUntil : ValidUntil) :
    PeerMap.announce config m.peerMap rng request ipAddress validUntil =
      some ((m.announce config rng request ipAddress validUntil).1,
        (m.announce config rng request ipAddress validUntil).2.1,
        (m.announce config rng request ipAddress validUntil).2.2.1.peerMap,
        (m.announce config rng request ipAddress validUntil).2.2.2) :=
  (Option.some_get _).symm

end SoundPeerMap

theorem SoundShards.get_insert (m : SoundShards I) (h : InfoHash) (peerMap : SoundPeerMap I)
    (h' : InfoHash) : (m.insert h peerMap).get h' = if h' = h then some peerMap else m.get h' := by
  simp only [SoundShards.get, SoundShards.insert]
  by_cases hh : h' = h
  · subst hh
    rw [if_pos rfl, if_pos rfl, IndexMap.get_insert, if_pos rfl]
  · rw [if_neg hh]
    split
    · rw [IndexMap.get_insert, if_neg hh]
    · rfl

namespace TorrentMapShards

/-- The torrents that are found in the shards, with what their arcs point to. -/
def Shows (s : TorrentMapShards I) (m : SoundShards I) : Prop :=
  ∀ h, (m.get h).map SoundPeerMap.peerMap = (s.get h).map fun arc => (s.torrentData arc).peerMap

variable {config : Config} {s s₁ s₂ : TorrentMapShards I} {m : SoundShards I}

/-- In every state that is reached there are such shards. -/
theorem exists_shows (hs : Kept config s) : ∃ m : SoundShards I, s.Shows m := by
  have hwell : ∀ arc, (s.torrentData arc).peerMap.WellFormed := by
    intro arc
    obtain ⟨t, ht⟩ := hs.refines arc
    exact ht.wellFormed
  refine ⟨⟨fun i => (s.shards i).filterMap fun _ arc => some ⟨_, hwell arc⟩⟩, ?_⟩
  intro h
  simp only [SoundShards.get, IndexMap.get_filterMap, TorrentMapShards.get]
  cases (s.shards (shardIndex h)).get h <;> rfl

/-- What a lookup does, as seen from outside. -/
theorem shows_lookUp (hs : Kept config s) (hm : s.Shows m) {worker : Nat}
    {request : AnnounceRequest} {ipAddress : I} {validUntil : ValidUntil}
    (h : s.lookUp worker request ipAddress validUntil = some s₁) :
    ∃ arc, s₁.inFlight worker = some ⟨request, ipAddress, validUntil, arc⟩ ∧
      s₁.get request.infoHash = some arc ∧
      (s₁.torrentData arc).peerMap =
        ((m.get request.infoHash).getD SoundPeerMap.default).peerMap ∧
      ∀ h', h' ≠ request.infoHash → (m.get h').map SoundPeerMap.peerMap =
        (s₁.get h').map fun arc => (s₁.torrentData arc).peerMap := by
  unfold lookUp at h
  split at h
  · cases h
  split at h
  · rename_i arc harc
    cases h
    refine ⟨arc, if_pos rfl, harc, ?_, fun h' _ => hm h'⟩
    have hshown := hm request.infoHash
    rw [harc] at hshown
    obtain ⟨peerMap, hpeerMap, heq⟩ := Option.map_eq_some_iff.mp hshown
    rw [hpeerMap]
    exact heq.symm
  · rename_i hnone
    split at h
    · cases h
    cases h
    have hnew := get_insertNew s request.infoHash
    refine ⟨⟨s.allocated⟩, if_pos rfl, ?_, ?_, ?_⟩
    · exact (hnew request.infoHash).trans (if_pos rfl)
    · have hshown := hm request.infoHash
      rw [hnone] at hshown
      rw [Option.map_eq_none_iff.mp hshown]
      exact congrArg TorrentData.peerMap (if_pos rfl)
    · intro h' hh
      have hget : (s.insertNew request.infoHash).get h' = s.get h' := (hnew h').trans (if_neg hh)
      change (m.get h').map SoundPeerMap.peerMap = ((s.insertNew request.infoHash).get h').map
        fun arc => ((s.insertNew request.infoHash).torrentData arc).peerMap
      rw [hget, hm h']
      cases hold : s.get h' with
      | none => rfl
      | some arc =>
        have hdata : (s.insertNew request.infoHash).torrentData arc = s.torrentData arc := by
          apply if_neg
          rintro rfl
          exact Nat.lt_irrefl _ (hs.allocated hold)
        rw [Option.map_some, Option.map_some, hdata]

/-- The announce of the shards is the one of the sharded map, if nothing comes between
its two steps: it answers the same and leaves the same torrents. -/
theorem shows_announce (hs : Kept config s) (hm : s.Shows m) {worker : Nat} {rng : Rng}
    {request : AnnounceRequest} {ipAddress : I} {validUntil : ValidUntil}
    {response : AnnounceResponse I}
    (hlookUp : s.lookUp worker request ipAddress validUntil = some s₁)
    (hannounce : s₁.announce config worker rng = some (response, s₂)) :
    response = (m.announce config rng request ipAddress validUntil).1 ∧
      s₂.Shows (m.announce config rng request ipAddress validUntil).2.2.1 := by
  obtain ⟨arc, hflight, harc, hpeerMap, hothers⟩ := shows_lookUp hs hm hlookUp
  obtain ⟨flight, hflight', hannounce⟩ := Option.bind_eq_some_iff.mp hannounce
  rw [hflight] at hflight'
  cases hflight'
  obtain ⟨r, hr, hannounce⟩ := Option.bind_eq_some_iff.mp hannounce
  simp only at hr
  rw [hpeerMap, SoundPeerMap.announce_eq] at hr
  cases hr
  obtain ⟨hresponse, hs₂⟩ := Prod.mk.inj (Option.some.inj hannounce)
  have hget : ∀ h, s₂.get h = s₁.get h := by
    intro h
    rw [← hs₂]
    rfl
  have hdata : ∀ a, (s₂.torrentData a).peerMap = if a = arc then
      (((m.get request.infoHash).getD SoundPeerMap.default).announce config rng request ipAddress
        validUntil).2.2.1.peerMap else (s₁.torrentData a).peerMap := by
    intro a
    rw [← hs₂]
    exact apply_ite TorrentData.peerMap (a = arc) _ _
  have hkept := hs.lookUp hlookUp
  refine ⟨hresponse.symm, ?_⟩
  intro h'
  rw [SoundShards.announce, SoundShards.get_insert, hget]
  by_cases hh : h' = request.infoHash
  · subst hh
    rw [if_pos rfl, harc, Option.map_some, Option.map_some, hdata, if_pos rfl]
  · rw [if_neg hh, hothers h' hh]
    cases hold : s₁.get h' with
    | none => rfl
    | some arc' =>
      have hne : arc' ≠ arc := by
        rintro rfl
        exact hh (hkept.apart hold harc)
      rw [Option.map_some, Option.map_some, hdata, if_neg hne]

end TorrentMapShards

end Aquatic.Udp
