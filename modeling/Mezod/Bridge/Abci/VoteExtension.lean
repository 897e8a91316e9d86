import Mezod.Bridge.Types.AssetsLocked

/-! # The bridge vote extension (`x/bridge/abci/vote_extension.go`)

A bridge validator extends its pre-commit with the AssetsLocked events that follow the sequence
tip, at most `AssetsLockedEventsLimit` of them. `validateAssetsLockedEvents` is the check that
the vote-extension handlers and the proposal handlers share: a list passes it when it is short
enough and `AssetsLockedEvents.IsValid`. -/

namespace Mezod
open Go

/-- The bridge `VoteExtension` (`vote_extension.pb.go`). -/
structure VoteExtension where
  assetsLockedEvents : List AssetsLockedEvent
  deriving DecidableEq, Repr

/-- A `VoteExtension` that gogoproto reads back as it wrote it: its events' integers are set and
within `MaxBitLen`. -/
def VoteExtension.readsBack (voteExtension : VoteExtension) : Bool :=
  voteExtension.assetsLockedEvents.all (·.readsBack)

/-- `AssetsLockedEventsLimit`. -/
def assetsLockedEventsLimit : Nat := 10

/-- `validateAssetsLockedEvents`. -/
def validateAssetsLockedEvents (codec : AddressCodec) (events : List AssetsLockedEvent) :
    Except String Unit :=
  if events.length > assetsLockedEventsLimit then .error "number of events exceeds the limit"
  else if !AssetsLockedEvents.isValid codec events then .error "events list is not valid"
  else .ok ()

variable {codec : AddressCodec} {events : List AssetsLockedEvent}

theorem validateAssetsLockedEvents_eq_ok :
    validateAssetsLockedEvents codec events = .ok () ↔
      events.length ≤ assetsLockedEventsLimit ∧ AssetsLockedEvents.isValid codec events := by
  unfold validateAssetsLockedEvents
  by_cases hlen : events.length > assetsLockedEventsLimit
  · simp [hlen]
  · by_cases hv : AssetsLockedEvents.isValid codec events
    · simp [hlen, hv]; omega
    · simp [hlen, hv]

theorem readsBack_of_validate (h : validateAssetsLockedEvents codec events = .ok ())
    (hw : ∀ e ∈ events, e.withinMaxBitLen) : VoteExtension.readsBack ⟨events⟩ := by
  have hv := AssetsLockedEvents.all_isValid_of_isValid (validateAssetsLockedEvents_eq_ok.1 h).2
  simp only [VoteExtension.readsBack, List.all_eq_true]
  exact fun e he => AssetsLockedEvent.readsBack_of_isValid (hv e he) (hw e he)

/-- The events of a list that passes the check carry distinct sequences. -/
theorem nodup_sequence_of_validate (h : validateAssetsLockedEvents codec events = .ok ()) :
    (events.map (·.sequence)).Nodup := by
  have hv := (validateAssetsLockedEvents_eq_ok.1 h).2
  have hset : ∀ e ∈ events, e.sequence.isSome := fun e he => by
    obtain ⟨n, hn, -⟩ := AssetsLockedEvent.exists_sequence_of_isValid
      (AssetsLockedEvents.all_isValid_of_isValid hv e he)
    simp [hn]
  refine List.pairwise_map.2 ((AssetsLockedEvents.pairwise_sequence_lt
    (AssetsLockedEvents.isStrictlyIncreasingSequence_of_isValid hv) hset).imp ?_)
  rintro a b ⟨x, y, hx, hy, hxy⟩
  rw [hx, hy]
  simp only [ne_eq, Option.some.injEq]
  omega

end Mezod
