import Mezod.Bridge.Abci.VoteCounter
import Mezod.Bridge.Abci.VoteExtension
import Mezod.Comet.Types

/-! # Canonical AssetsLocked events of a commit (`x/bridge/abci/proposal.go`)

`assetsLockedExtractor.CanonicalEvents` walks the votes of the last block's extended commit. Every
vote registers its power on its side, bridge or not; a vote that pre-committed the block and whose
bridge part decodes to a non-empty list passing `validateAssetsLockedEvents` then adds its power
to each of its events. `voteAssetsLockedEvents` is that chain of checks: it returns the events, or
the cause that the loop logs when it skips the vote.

`Counted votes c` is what the counter holds after the votes `votes`: both totals, in `int64`
arithmetic, and `Tallies` over the ballots the votes cast. A vote carries at most one event of a
sequence, so the power behind a class of `equal` events is the power of the votes that carry one
(`classVP_ballots`). Two events of one sequence cannot both hold a super-majority of the bridge
side, since the votes behind them would share one (`Quorum.exists_common_of_superMajority`),
which is why the counter's panic is out of reach. `backs` says, apart from the loop, which votes
back an event: those that pre-committed and carry it in a bridge part that decodes and validates.
Every vote the counter counts for an event backs it (`supportVP_le_backingVP`). -/

namespace Mezod
open Go

/-- `assetsLockedExtractor`, with the third-party decoders it calls. The validator store enters
`canonicalEvents` as the list of bridge-privileged addresses that it returns. -/
structure AssetsLockedExtractor where
  codec : AddressCodec
  /-- The `VoteExtensionDecomposer`: the bridge part of an app-level vote extension. -/
  voteExtensionDecomposer : Bytes → Except String Bytes
  /-- gogoproto `VoteExtension.Unmarshal`. -/
  unmarshalVoteExtension : Bytes → Except String VoteExtension

namespace AssetsLockedExtractor
variable (ale : AssetsLockedExtractor) (bridgeValsConsAddrs : List Bytes)

/-- `slices.ContainsFunc(bridgeValsConsAddrs, address.Equals(valConsAddr))`. -/
def isBridgeVal (vote : ExtendedVoteInfo) : Bool :=
  bridgeValsConsAddrs.contains vote.validatorAddress

/-- The checks of the loop body of `CanonicalEvents` after `registerVoter`: the events the vote
adds, or the cause that `logIgnoredVoteExtension` logs before the loop moves on. -/
def voteAssetsLockedEvents (vote : ExtendedVoteInfo) : Except String (List AssetsLockedEvent) :=
  if vote.blockIdFlag ≠ .commit then .error "non-commit vote extension"
  else if vote.voteExtension.isEmpty then .error "empty composite vote extension"
  else match ale.voteExtensionDecomposer vote.voteExtension with
    | .error err => .error ("decomposition error: " ++ err)
    | .ok voteExtensionBytes =>
      if voteExtensionBytes.isEmpty then .error "empty bridge-specific vote extension"
      else match ale.unmarshalVoteExtension voteExtensionBytes with
        | .error err => .error ("unmarshaling error: " ++ err)
        | .ok voteExtension =>
          if voteExtension.assetsLockedEvents.isEmpty then .error "no AssetsLocked events"
          else match validateAssetsLockedEvents ale.codec voteExtension.assetsLockedEvents with
            | .error err => .error ("invalid AssetsLocked sequence: " ++ err)
            | .ok () => .ok voteExtension.assetsLockedEvents

/-- One turn of the loop over `extendedCommitInfo.Votes`. -/
def processVote (c : AssetsLockedVoteCounter) (vote : ExtendedVoteInfo) : AssetsLockedVoteCounter :=
  let isBridgeVal := isBridgeVal bridgeValsConsAddrs vote
  let c := c.registerVoter vote.validatorPower isBridgeVal
  match ale.voteAssetsLockedEvents vote with
  | .error _ => c
  | .ok events =>
    events.foldl (fun c event => c.addVote ale.codec event vote.validatorPower isBridgeVal) c

/-- `CanonicalEvents`. The context and the height only reach the validator store and the log. -/
def canonicalEvents (rt : Runtime) (extendedCommitInfo : ExtendedCommitInfo) :
    Except GoError (List AssetsLockedEvent) :=
  (extendedCommitInfo.votes.foldl (ale.processVote bridgeValsConsAddrs)
    newAssetsLockedVoteCounter).canonicalEvents rt

/-! ## The votes behind an event -/

/-- The events a vote adds to the counter: none when the loop skips it. -/
def votedEvents (vote : ExtendedVoteInfo) : List AssetsLockedEvent :=
  match ale.voteAssetsLockedEvents vote with
  | .ok events => events
  | .error _ => []

/-- The ballot a vote casts for one of its events. -/
def ballotOf (vote : ExtendedVoteInfo) (event : AssetsLockedEvent) : Ballot :=
  ⟨event, vote.validatorPower, isBridgeVal bridgeValsConsAddrs vote⟩

/-- The ballots of a list of votes, in the order the loop casts them. -/
def ballots (votes : List ExtendedVoteInfo) : List Ballot :=
  votes.flatMap fun vote => (ale.votedEvents vote).map (ballotOf bridgeValsConsAddrs vote)

/-- The power of the votes on one side. -/
def totalVP (side : Bool) (votes : List ExtendedVoteInfo) : Int :=
  Quorum.weightOf (·.validatorPower.toInt) (fun v => isBridgeVal bridgeValsConsAddrs v == side)
    votes

/-- The power of the votes on one side that add an event `equal` to `e`. -/
def supportVP (side : Bool) (e : AssetsLockedEvent) (votes : List ExtendedVoteInfo) : Int :=
  Quorum.weightOf (·.validatorPower.toInt)
    (fun v => isBridgeVal bridgeValsConsAddrs v == side &&
      (ale.votedEvents v).any (·.equal ale.codec e)) votes

/-- A vote backs `e` when it pre-committed the block, and the bridge part decomposed from its
vote extension is non-empty and unmarshals to events that pass `validateAssetsLockedEvents`, one
of them `equal` to `e`. -/
def backs (e : AssetsLockedEvent) (vote : ExtendedVoteInfo) : Bool :=
  vote.blockIdFlag == .commit &&
    match ale.voteExtensionDecomposer vote.voteExtension with
    | .error _ => false
    | .ok voteExtensionBytes =>
      !voteExtensionBytes.isEmpty &&
        match ale.unmarshalVoteExtension voteExtensionBytes with
        | .error _ => false
        | .ok voteExtension =>
          (validateAssetsLockedEvents ale.codec voteExtension.assetsLockedEvents).isOk &&
            voteExtension.assetsLockedEvents.any (·.equal ale.codec e)

/-- The power of the votes on one side that back `e`. -/
def backingVP (side : Bool) (e : AssetsLockedEvent) (votes : List ExtendedVoteInfo) : Int :=
  Quorum.weightOf (·.validatorPower.toInt)
    (fun v => isBridgeVal bridgeValsConsAddrs v == side && ale.backs e v) votes

/-- The extractor's `Unmarshal` gives integers within `MaxBitLen`, as gogoproto's does. -/
def UnmarshalsWithinMaxBitLen : Prop :=
  ∀ bytes voteExtension, ale.unmarshalVoteExtension bytes = .ok voteExtension →
    ∀ e ∈ voteExtension.assetsLockedEvents, e.withinMaxBitLen

variable {ale bridgeValsConsAddrs}

/-- The spec of the loop body: a vote adds its events exactly when it pre-committed, its
composite and bridge parts are non-empty, the bridge part decodes, and its events are a
non-empty list that passes `validateAssetsLockedEvents`. -/
theorem voteAssetsLockedEvents_eq_ok {vote : ExtendedVoteInfo} {events : List AssetsLockedEvent} :
    ale.voteAssetsLockedEvents vote = .ok events ↔
      vote.blockIdFlag = .commit ∧ vote.voteExtension ≠ [] ∧
      ∃ voteExtensionBytes, ale.voteExtensionDecomposer vote.voteExtension = .ok voteExtensionBytes ∧
        voteExtensionBytes ≠ [] ∧
        ale.unmarshalVoteExtension voteExtensionBytes = .ok ⟨events⟩ ∧ events ≠ [] ∧
        validateAssetsLockedEvents ale.codec events = .ok () := by
  constructor
  · -- one case per check of the loop body, in the source's order
    intro h
    unfold voteAssetsLockedEvents at h
    split at h
    · cases h
    split at h
    · cases h
    rename_i hflag hext
    split at h
    · cases h
    rename_i bytes hd
    split at h
    · cases h
    rename_i hbytes
    split at h
    · cases h
    rename_i ve hu
    split at h
    · cases h
    rename_i hevs
    split at h
    · cases h
    rename_i hv
    cases h
    simp only [ne_eq, Decidable.not_not, List.isEmpty_iff] at hflag hext hbytes hevs
    exact ⟨hflag, hext, bytes, hd, hbytes, hu, hevs, hv⟩
  · rintro ⟨hflag, hext, bytes, hd, hbytes, hu, hevs, hv⟩
    simp [voteAssetsLockedEvents, hflag, hext, hd, hbytes, hu, hevs, hv]

theorem validate_of_mem_votedEvents {vote : ExtendedVoteInfo} :
    validateAssetsLockedEvents ale.codec (ale.votedEvents vote) = .ok () := by
  unfold votedEvents
  split
  · rename_i events h
    obtain ⟨-, -, -, -, -, -, -, h⟩ := voteAssetsLockedEvents_eq_ok.1 h
    exact h
  · rfl

theorem backs_of_mem_votedEvents {vote : ExtendedVoteInfo} {e e' : AssetsLockedEvent}
    (he' : e' ∈ ale.votedEvents vote) (heq : e'.equal ale.codec e) : ale.backs e vote := by
  unfold votedEvents at he'
  split at he'
  · rename_i events h
    obtain ⟨hflag, -, bytes, hd, hbytes, hu, -, hv⟩ := voteAssetsLockedEvents_eq_ok.1 h
    have hany : events.any (·.equal ale.codec e) := List.any_eq_true.2 ⟨e', he', heq⟩
    simp [backs, hflag, hd, hbytes, hu, hv, hany, Except.isOk, Except.toBool]
  · cases he'

theorem supportVP_le_backingVP {votes : List ExtendedVoteInfo}
    (hnonneg : ∀ v ∈ votes, 0 ≤ v.validatorPower.toInt) (side : Bool) (e : AssetsLockedEvent) :
    ale.supportVP bridgeValsConsAddrs side e votes ≤
      ale.backingVP bridgeValsConsAddrs side e votes := by
  refine Quorum.weightOf_le hnonneg fun v _ h => ?_
  simp only [Bool.and_eq_true, List.any_eq_true] at h ⊢
  obtain ⟨hside, e', he', heq⟩ := h
  exact ⟨hside, backs_of_mem_votedEvents he' heq⟩

theorem isValid_of_mem_votedEvents {vote : ExtendedVoteInfo} {e : AssetsLockedEvent}
    (he : e ∈ ale.votedEvents vote) : e.isValid ale.codec :=
  AssetsLockedEvents.all_isValid_of_isValid
    (validateAssetsLockedEvents_eq_ok.1 validate_of_mem_votedEvents).2 e he

theorem withinMaxBitLen_of_mem_votedEvents (hw : ale.UnmarshalsWithinMaxBitLen)
    {vote : ExtendedVoteInfo} {e : AssetsLockedEvent} (he : e ∈ ale.votedEvents vote) :
    e.withinMaxBitLen := by
  unfold votedEvents at he
  split at he
  · rename_i events h
    obtain ⟨-, -, bytes, -, -, hu, -⟩ := voteAssetsLockedEvents_eq_ok.1 h
    exact hw bytes ⟨events⟩ hu e he
  · cases he

theorem nodup_sequence_votedEvents (vote : ExtendedVoteInfo) :
    ((ale.votedEvents vote).map (·.sequence)).Nodup :=
  nodup_sequence_of_validate validate_of_mem_votedEvents

theorem classVP_map_ballotOf (vote : ExtendedVoteInfo) (side : Bool) (e : AssetsLockedEvent) :
    ∀ {events : List AssetsLockedEvent}, (events.map (·.sequence)).Nodup →
      AssetsLockedVoteCounter.classVP ale.codec (events.map (ballotOf bridgeValsConsAddrs vote))
        side e =
      if (isBridgeVal bridgeValsConsAddrs vote == side &&
        events.any (·.equal ale.codec e)) then vote.validatorPower.toInt else 0
  | [], _ => by simp
  | a :: rest, hnd => by
    simp only [List.map_cons, List.nodup_cons, List.mem_map] at hnd
    rw [List.map_cons, AssetsLockedVoteCounter.classVP_cons, classVP_map_ballotOf vote side e hnd.2]
    by_cases ha : a.equal ale.codec e
    · -- the other events of the vote carry other sequences, hence other classes
      have hrest : ∀ b ∈ rest, b.equal ale.codec e = false := by
        intro b hb
        by_contra hbe
        have hbe : b.equal ale.codec e := by simpa using hbe
        exact hnd.1 ⟨b, hb, (AssetsLockedEvent.sequence_eq_of_equal hbe).trans
          (AssetsLockedEvent.sequence_eq_of_equal ha).symm⟩
      have hany : rest.any (·.equal ale.codec e) = false := by
        simpa using hrest
      by_cases hs : isBridgeVal bridgeValsConsAddrs vote = side <;> simp [ballotOf, ha, hany, hs]
    · simp [ballotOf, ha]

theorem classVP_ballots (side : Bool) (e : AssetsLockedEvent) (votes : List ExtendedVoteInfo) :
    AssetsLockedVoteCounter.classVP ale.codec (ale.ballots bridgeValsConsAddrs votes) side e =
      ale.supportVP bridgeValsConsAddrs side e votes := by
  induction votes with
  | nil => rfl
  | cons vote votes ih =>
    rw [ballots, List.flatMap_cons, ← ballots, AssetsLockedVoteCounter.classVP_append, ih,
      classVP_map_ballotOf vote side e (nodup_sequence_votedEvents vote), supportVP, supportVP,
      Quorum.weightOf_cons]

theorem ballots_append (votes votes' : List ExtendedVoteInfo) :
    ale.ballots bridgeValsConsAddrs (votes ++ votes') =
      ale.ballots bridgeValsConsAddrs votes ++ ale.ballots bridgeValsConsAddrs votes' :=
  List.flatMap_append

theorem ballots_singleton (vote : ExtendedVoteInfo) :
    ale.ballots bridgeValsConsAddrs [vote] =
      (ale.votedEvents vote).map (ballotOf bridgeValsConsAddrs vote) :=
  List.flatMap_singleton _ _

theorem isValid_of_mem_ballots {votes : List ExtendedVoteInfo} {b : Ballot}
    (hb : b ∈ ale.ballots bridgeValsConsAddrs votes) : b.event.isValid ale.codec := by
  obtain ⟨vote, -, hb⟩ := List.mem_flatMap.1 hb
  obtain ⟨e, he, rfl⟩ := List.mem_map.1 hb
  exact isValid_of_mem_votedEvents he

theorem ballots_perm {votes votes' : List ExtendedVoteInfo} (hp : votes.Perm votes') :
    (ale.ballots bridgeValsConsAddrs votes).Perm (ale.ballots bridgeValsConsAddrs votes') :=
  hp.flatMap_right _

theorem isSome_sequence_of_mem_ballots {votes : List ExtendedVoteInfo} {b : Ballot}
    (hb : b ∈ ale.ballots bridgeValsConsAddrs votes) : b.event.sequence.isSome := by
  obtain ⟨n, hn, -⟩ := AssetsLockedEvent.exists_sequence_of_isValid (isValid_of_mem_ballots hb)
  simp [hn]

theorem totalVP_perm (side : Bool) {votes votes' : List ExtendedVoteInfo} (hp : votes.Perm votes') :
    totalVP bridgeValsConsAddrs side votes = totalVP bridgeValsConsAddrs side votes' :=
  Quorum.weightOf_perm hp

theorem totalVP_concat (side : Bool) (votes : List ExtendedVoteInfo) (vote : ExtendedVoteInfo) :
    totalVP bridgeValsConsAddrs side (votes ++ [vote]) = totalVP bridgeValsConsAddrs side votes +
      if isBridgeVal bridgeValsConsAddrs vote = side then vote.validatorPower.toInt else 0 := by
  unfold totalVP
  rw [Quorum.weightOf_append, Quorum.weightOf_cons, Quorum.weightOf_nil, Int.add_zero]
  by_cases hs : isBridgeVal bridgeValsConsAddrs vote = side <;> simp [hs]

/-! ## The counter after the loop -/

theorem processVote_eq (c : AssetsLockedVoteCounter) (vote : ExtendedVoteInfo) :
    ale.processVote bridgeValsConsAddrs c vote =
      ((ale.votedEvents vote).map (ballotOf bridgeValsConsAddrs vote)).foldl
        (AssetsLockedVoteCounter.addBallot ale.codec)
        (c.registerVoter vote.validatorPower (isBridgeVal bridgeValsConsAddrs vote)) := by
  unfold processVote votedEvents
  cases ale.voteAssetsLockedEvents vote with
  | error err => rfl
  | ok events =>
    rw [List.foldl_map]
    rfl

variable (ale bridgeValsConsAddrs) in
/-- What the counter holds after the votes `votes`. -/
structure Counted (votes : List ExtendedVoteInfo) (c : AssetsLockedVoteCounter) : Prop where
  total : ∀ side, c.sideTotalVP side = Int64.ofInt (totalVP bridgeValsConsAddrs side votes)
  tallies : AssetsLockedVoteCounter.Tallies ale.codec (ale.ballots bridgeValsConsAddrs votes)
    c.voteInfoMap

theorem counted_nil : Counted ale bridgeValsConsAddrs [] newAssetsLockedVoteCounter where
  total side := by cases side <;> rfl
  tallies := AssetsLockedVoteCounter.tallies_nil

theorem processVote_counted {votes : List ExtendedVoteInfo} {c : AssetsLockedVoteCounter}
    (h : Counted ale bridgeValsConsAddrs votes c) (vote : ExtendedVoteInfo) :
    Counted ale bridgeValsConsAddrs (votes ++ [vote]) (ale.processVote bridgeValsConsAddrs c vote) := by
  rw [processVote_eq]
  constructor
  · intro side
    rw [AssetsLockedVoteCounter.foldl_addBallot_sideTotalVP,
      AssetsLockedVoteCounter.sideTotalVP_registerVoter, h.total side, totalVP_concat]
    by_cases hs : isBridgeVal bridgeValsConsAddrs vote = side
    · simp [hs, Int64.ofInt_add]
    · simp [hs]
  · have ht : AssetsLockedVoteCounter.Tallies ale.codec (ale.ballots bridgeValsConsAddrs votes)
        (c.registerVoter vote.validatorPower (isBridgeVal bridgeValsConsAddrs vote)).voteInfoMap := by
      rw [AssetsLockedVoteCounter.registerVoter_voteInfoMap]
      exact h.tallies
    have := AssetsLockedVoteCounter.foldl_addBallot_tallies ht
      ((ale.votedEvents vote).map (ballotOf bridgeValsConsAddrs vote))
    rwa [ballots_append, ballots_singleton]

/-- The run lemma of the loop. -/
theorem foldl_processVote_counted {votes : List ExtendedVoteInfo} {c : AssetsLockedVoteCounter}
    (h : Counted ale bridgeValsConsAddrs votes c) (votes' : List ExtendedVoteInfo) :
    Counted ale bridgeValsConsAddrs (votes ++ votes')
      (votes'.foldl (ale.processVote bridgeValsConsAddrs) c) := by
  induction votes' generalizing votes c with
  | nil => simpa using h
  | cons vote votes' ih =>
    have := ih (processVote_counted h vote)
    simpa using this

/-! ## Power without overflow -/

section Bounded
variable {votes : List ExtendedVoteInfo}
  (hnonneg : ∀ v ∈ votes, 0 ≤ v.validatorPower.toInt)
  (hsum : (votes.map (·.validatorPower.toInt)).sum ≤ maxTotalVotingPower)
include hnonneg hsum

theorem weightOf_bounds (p : ExtendedVoteInfo → Bool) :
    0 ≤ Quorum.weightOf (·.validatorPower.toInt) p votes ∧
      Quorum.weightOf (·.validatorPower.toInt) p votes ≤ maxTotalVotingPower := by
  refine ⟨Quorum.weightOf_nonneg hnonneg, ?_⟩
  have hall : (votes.map (·.validatorPower.toInt)).sum =
      Quorum.weightOf (·.validatorPower.toInt) (fun _ => true) votes := by
    simp [Quorum.weightOf]
  have hle := Quorum.weightOf_le (p := p) (r := fun _ => true) hnonneg (by simp)
  omega

theorem toInt_ofInt_weightOf (p : ExtendedVoteInfo → Bool) :
    (Int64.ofInt (Quorum.weightOf (·.validatorPower.toInt) p votes)).toInt =
      Quorum.weightOf (·.validatorPower.toInt) p votes := by
  obtain ⟨h0, h1⟩ := weightOf_bounds hnonneg hsum p
  unfold maxTotalVotingPower at h1
  exact Int64.toInt_ofInt_of_le (by omega) (by omega)

theorem requiredVP_sideTotalVP {c : AssetsLockedVoteCounter}
    (h : Counted ale bridgeValsConsAddrs votes c) (side : Bool) :
    (AssetsLockedVoteCounter.requiredVP (c.sideTotalVP side)).toInt =
      Quorum.superMajority (totalVP bridgeValsConsAddrs side votes) := by
  obtain ⟨h0, h1⟩ : 0 ≤ totalVP bridgeValsConsAddrs side votes ∧
      totalVP bridgeValsConsAddrs side votes ≤ maxTotalVotingPower :=
    weightOf_bounds hnonneg hsum _
  unfold maxTotalVotingPower at h1
  rw [h.total side]
  exact AssetsLockedVoteCounter.requiredVP_toInt h0 (by omega)

theorem requiredVP_le_sideVP_iff {c : AssetsLockedVoteCounter}
    (h : Counted ale bridgeValsConsAddrs votes c) {k : MathInt} {vi : AssetsLockedVoteInfo}
    (hvi : vi ∈ VoteInfoMap.bucket c.voteInfoMap k) (side : Bool) :
    AssetsLockedVoteCounter.requiredVP (c.sideTotalVP side) ≤ vi.sideVP side ↔
      Quorum.superMajority (totalVP bridgeValsConsAddrs side votes) ≤
        ale.supportVP bridgeValsConsAddrs side vi.event votes := by
  rw [Int64.le_iff_toInt_le, requiredVP_sideTotalVP hnonneg hsum h, h.tallies.vp k vi hvi side,
    classVP_ballots, supportVP, toInt_ofInt_weightOf hnonneg hsum]

theorem equal_of_requiredVP_le {c : AssetsLockedVoteCounter}
    (h : Counted ale bridgeValsConsAddrs votes c) {k : MathInt} {vi wi : AssetsLockedVoteInfo}
    (hvi : vi ∈ VoteInfoMap.bucket c.voteInfoMap k) (hwi : wi ∈ VoteInfoMap.bucket c.voteInfoMap k)
    (hv : AssetsLockedVoteCounter.requiredVP (c.sideTotalVP true) ≤ vi.sideVP true)
    (hw : AssetsLockedVoteCounter.requiredVP (c.sideTotalVP true) ≤ wi.sideVP true) :
    vi.event.equal ale.codec wi.event := by
  rw [requiredVP_le_sideVP_iff hnonneg hsum h hvi] at hv
  rw [requiredVP_le_sideVP_iff hnonneg hsum h hwi] at hw
  obtain ⟨vote, -, hp, hq⟩ := Quorum.exists_common_of_superMajority hnonneg
    (fun v _ hv => by simp only [Bool.and_eq_true] at hv; exact hv.1)
    (fun v _ hv => by simp only [Bool.and_eq_true] at hv; exact hv.1) hv hw
  simp only [Bool.and_eq_true, List.any_eq_true] at hp hq
  obtain ⟨a, ha, hae⟩ := hp.2
  obtain ⟨b, hb, hbe⟩ := hq.2
  have hseq : a.sequence = b.sequence := by
    rw [AssetsLockedEvent.sequence_eq_of_equal hae, AssetsLockedEvent.sequence_eq_of_equal hbe,
      h.tallies.sequence k vi hvi, h.tallies.sequence k wi hwi]
  have hab : a = b := List.inj_on_of_nodup_map (nodup_sequence_votedEvents vote) ha hb hseq
  subst hab
  rw [AssetsLockedEvent.equal_comm] at hae
  exact AssetsLockedEvent.equal_trans hae hbe

/-- No sequence has two events at both super-majorities. -/
theorem atMostOnePerSequence {c : AssetsLockedVoteCounter}
    (h : Counted ale bridgeValsConsAddrs votes c) : AssetsLockedVoteCounter.AtMostOnePerSequence c := by
  rw [h.tallies.atMostOnePerSequence_iff]
  intro k vi hvi wi hwi hpv hpw
  simp only [AssetsLockedVoteCounter.reachesRequiredVP, Bool.and_eq_true, decide_eq_true_eq] at hpv hpw
  exact equal_of_requiredVP_le hnonneg hsum h hvi hwi hpv.1 hpw.1

end Bounded

/-! ## `CanonicalEvents` -/

theorem counted_foldl_processVote (votes : List ExtendedVoteInfo) :
    Counted ale bridgeValsConsAddrs votes
      (votes.foldl (ale.processVote bridgeValsConsAddrs) newAssetsLockedVoteCounter) := by
  simpa using foldl_processVote_counted counted_nil votes

/-- Every event `CanonicalEvents` returns is the event of a ballot that one of the votes cast. -/
theorem exists_ballot_of_mem_canonicalEvents {rt : Runtime}
    {extendedCommitInfo : ExtendedCommitInfo} {events : List AssetsLockedEvent}
    (h : ale.canonicalEvents bridgeValsConsAddrs rt extendedCommitInfo = .ok events)
    {e : AssetsLockedEvent} (he : e ∈ events) :
    ∃ b ∈ ale.ballots bridgeValsConsAddrs extendedCommitInfo.votes, b.event = e := by
  let c := extendedCommitInfo.votes.foldl (ale.processVote bridgeValsConsAddrs)
    newAssetsLockedVoteCounter
  have hc : Counted ale bridgeValsConsAddrs extendedCommitInfo.votes c :=
    counted_foldl_processVote extendedCommitInfo.votes
  obtain ⟨-, ⟨k, B⟩, hentry, vi, hvi, -, -, rfl⟩ :=
    AssetsLockedVoteCounter.exists_voteInfo_of_mem_canonicalEvents h he
  have hvi : vi ∈ VoteInfoMap.bucket c.voteInfoMap k := by
    rwa [VoteInfoMap.bucket_of_mem hc.tallies.keys_nodup hentry]
  exact hc.tallies.origin k vi hvi

/-- What `CanonicalEvents` returns is a valid list: each event was valid in a vote it came from,
and the list increases by one. -/
theorem isValid_canonicalEvents {rt : Runtime} {extendedCommitInfo : ExtendedCommitInfo}
    {events : List AssetsLockedEvent}
    (h : ale.canonicalEvents bridgeValsConsAddrs rt extendedCommitInfo = .ok events) :
    AssetsLockedEvents.isValid ale.codec events := by
  simp only [AssetsLockedEvents.isValid, Bool.and_eq_true, List.all_eq_true]
  refine ⟨fun e he => ?_, AssetsLockedVoteCounter.isStrictlyIncreasingSequence_of_canonicalEvents h⟩
  obtain ⟨b, hb, rfl⟩ := exists_ballot_of_mem_canonicalEvents h he
  exact isValid_of_mem_ballots hb

theorem readsBack_of_mem_canonicalEvents (hw : ale.UnmarshalsWithinMaxBitLen) {rt : Runtime}
    {extendedCommitInfo : ExtendedCommitInfo} {events : List AssetsLockedEvent}
    (h : ale.canonicalEvents bridgeValsConsAddrs rt extendedCommitInfo = .ok events) :
    ∀ e ∈ events, e.readsBack := by
  intro e he
  obtain ⟨b, hb, rfl⟩ := exists_ballot_of_mem_canonicalEvents h he
  obtain ⟨vote, -, hb⟩ := List.mem_flatMap.1 hb
  obtain ⟨e', he', rfl⟩ := List.mem_map.1 hb
  exact AssetsLockedEvent.readsBack_of_isValid (isValid_of_mem_votedEvents he')
    (withinMaxBitLen_of_mem_votedEvents hw he')

/-- With powers that cannot overflow, `CanonicalEvents` never panics, returns nothing when one
side has no power, and returns a list that increases by one, of valid events, each backed by a
super-majority of both sides. -/
theorem canonicalEvents_sound (rt : Runtime) (extendedCommitInfo : ExtendedCommitInfo)
    (hnonneg : ∀ v ∈ extendedCommitInfo.votes, 0 ≤ v.validatorPower.toInt)
    (hsum : (extendedCommitInfo.votes.map (·.validatorPower.toInt)).sum ≤ maxTotalVotingPower) :
    (∀ msg, ale.canonicalEvents bridgeValsConsAddrs rt extendedCommitInfo ≠ .error (.panic msg)) ∧
    (totalVP bridgeValsConsAddrs true extendedCommitInfo.votes ≤ 0 ∨
        totalVP bridgeValsConsAddrs false extendedCommitInfo.votes ≤ 0 →
      ale.canonicalEvents bridgeValsConsAddrs rt extendedCommitInfo = .ok []) ∧
    ∀ events, ale.canonicalEvents bridgeValsConsAddrs rt extendedCommitInfo = .ok events →
      AssetsLockedEvents.isStrictlyIncreasingSequence events ∧
      ∀ e ∈ events, e.isValid ale.codec ∧
        Quorum.superMajority (totalVP bridgeValsConsAddrs true extendedCommitInfo.votes) ≤
          ale.backingVP bridgeValsConsAddrs true e extendedCommitInfo.votes ∧
        Quorum.superMajority (totalVP bridgeValsConsAddrs false extendedCommitInfo.votes) ≤
          ale.backingVP bridgeValsConsAddrs false e extendedCommitInfo.votes := by
  let c := extendedCommitInfo.votes.foldl (ale.processVote bridgeValsConsAddrs)
    newAssetsLockedVoteCounter
  have hc : Counted ale bridgeValsConsAddrs extendedCommitInfo.votes c :=
    counted_foldl_processVote extendedCommitInfo.votes
  refine ⟨AssetsLockedVoteCounter.canonicalEvents_ne_panic (atMostOnePerSequence hnonneg hsum hc),
    ?_, ?_⟩
  · -- a side without power: its total is zero, and so is the counter's
    intro hnp
    apply AssetsLockedVoteCounter.canonicalEvents_of_nonpos
    have hzero : ∀ side, totalVP bridgeValsConsAddrs side extendedCommitInfo.votes ≤ 0 →
        c.sideTotalVP side ≤ 0 := by
      intro side hle
      have h0 : 0 ≤ totalVP bridgeValsConsAddrs side extendedCommitInfo.votes :=
        Quorum.weightOf_nonneg hnonneg
      rw [hc.total side, show totalVP bridgeValsConsAddrs side extendedCommitInfo.votes = 0 by omega]
      decide
    exact hnp.imp (hzero true) (hzero false)
  · intro events h
    refine ⟨AssetsLockedVoteCounter.isStrictlyIncreasingSequence_of_canonicalEvents h,
      fun e he => ?_⟩
    obtain ⟨-, ⟨k, B⟩, hentry, vi, hvi, hbr, hnbr, rfl⟩ :=
      AssetsLockedVoteCounter.exists_voteInfo_of_mem_canonicalEvents h he
    have hvi : vi ∈ VoteInfoMap.bucket c.voteInfoMap k := by
      rwa [VoteInfoMap.bucket_of_mem hc.tallies.keys_nodup hentry]
    obtain ⟨b, hb, hbe⟩ := hc.tallies.origin k vi hvi
    -- the counter's tally is the power of the votes that add the event, and they back it
    exact ⟨hbe ▸ isValid_of_mem_ballots hb,
      ((requiredVP_le_sideVP_iff hnonneg hsum hc hvi true).1 hbr).trans
        (supportVP_le_backingVP hnonneg true _),
      ((requiredVP_le_sideVP_iff hnonneg hsum hc hvi false).1 hnbr).trans
        (supportVP_le_backingVP hnonneg false _)⟩

/-- A bridge and a non-bridge validator whose extensions decode to one event, and a non-bridge
validator that voted nil: the event is returned, backed by all the bridge power and by a
super-majority of the non-bridge side, without the nil vote. -/
theorem canonicalEvents_sound_oneEvent :
    let e : AssetsLockedEvent :=
      ⟨some 1, "mezo1recipient", some 100, "0x1111111111111111111111111111111111111111"⟩
    let ale : AssetsLockedExtractor :=
      ⟨⟨fun _ => some [1], Eth.isHexAddress, Eth.hexToAddress, fun _ => ""⟩, .ok,
        fun _ => .ok ⟨[e]⟩⟩
    let votes : List ExtendedVoteInfo :=
      [⟨[1], 10, [5], .commit⟩, ⟨[2], 20, [5], .commit⟩, ⟨[3], 5, [5], .nil⟩]
    ((∀ v ∈ votes, 0 ≤ v.validatorPower.toInt) ∧
      (votes.map (·.validatorPower.toInt)).sum ≤ maxTotalVotingPower) ∧
    ale.canonicalEvents [[1]] Runtime.insertionOrder ⟨votes⟩ = .ok [e] ∧
      ale.backingVP [[1]] false e votes = 20 ∧
      Quorum.superMajority (totalVP [[1]] true votes) ≤ ale.backingVP [[1]] true e votes ∧
      Quorum.superMajority (totalVP [[1]] false votes) ≤ ale.backingVP [[1]] false e votes := by
  intro e ale votes
  have hcanon : ale.canonicalEvents [[1]] Runtime.insertionOrder ⟨votes⟩ = .ok [e] := by
    decide +kernel
  obtain ⟨-, hbridge, hother⟩ := ((canonicalEvents_sound Runtime.insertionOrder ⟨votes⟩
    (by decide) (by decide)).2.2 [e] hcanon).2 e List.mem_cons_self
  exact ⟨⟨by decide, by decide⟩, hcanon, by decide +kernel, hbridge, hother⟩

theorem canonicalEvents_sameOutcome_runtime (rt rt' : Runtime)
    (extendedCommitInfo : ExtendedCommitInfo) :
    SameOutcome (fun l l' => AssetsLockedEvents.equal ale.codec l l')
      (ale.canonicalEvents bridgeValsConsAddrs rt extendedCommitInfo)
      (ale.canonicalEvents bridgeValsConsAddrs rt' extendedCommitInfo) := by
  have hc : Counted ale bridgeValsConsAddrs extendedCommitInfo.votes _ :=
    counted_foldl_processVote extendedCommitInfo.votes
  exact AssetsLockedVoteCounter.canonicalEvents_sameOutcome rt rt' hc.tallies hc.tallies
    (List.Perm.refl _) (fun b hb => isSome_sequence_of_mem_ballots hb) (fun _ => rfl)

/-- `CanonicalEvents` does not depend on the order of the votes, nor on the order the runtime
visits the counter's map in or sorts equal keys in: any two runs fail in the same way or return
lists that are `Equal`. -/
theorem canonicalEvents_deterministic (rt rt' : Runtime) (extendedCommitInfo : ExtendedCommitInfo)
    (votes' : List ExtendedVoteInfo) (hperm : extendedCommitInfo.votes.Perm votes') :
    SameOutcome (fun l l' => AssetsLockedEvents.equal ale.codec l l')
      (ale.canonicalEvents bridgeValsConsAddrs rt extendedCommitInfo)
      (ale.canonicalEvents bridgeValsConsAddrs rt' ⟨votes'⟩) := by
  have hc : Counted ale bridgeValsConsAddrs extendedCommitInfo.votes _ :=
    counted_foldl_processVote extendedCommitInfo.votes
  have hc' : Counted ale bridgeValsConsAddrs votes' _ := counted_foldl_processVote votes'
  exact AssetsLockedVoteCounter.canonicalEvents_sameOutcome rt rt' hc.tallies hc'.tallies
    (ballots_perm hperm) (fun b hb => isSome_sequence_of_mem_ballots hb)
    (fun side => by rw [hc.total side, hc'.total side, totalVP_perm side hperm])

/-- Two bridge validators whose extensions decode to two events of one sequence, and a non-bridge
validator with the first: in either order of the votes, the first event is returned. -/
theorem canonicalEvents_deterministic_swap :
    let e₁ : AssetsLockedEvent :=
      ⟨some 1, "mezo1recipient", some 100, "0x1111111111111111111111111111111111111111"⟩
    let e₂ : AssetsLockedEvent := { e₁ with amount := some 200 }
    let ale : AssetsLockedExtractor :=
      ⟨⟨fun _ => some [1], Eth.isHexAddress, Eth.hexToAddress, fun _ => ""⟩, .ok,
        fun bytes => if bytes = [5] then .ok ⟨[e₁]⟩ else .ok ⟨[e₂]⟩⟩
    let v₁ : ExtendedVoteInfo := ⟨[1], 20, [5], .commit⟩
    let v₂ : ExtendedVoteInfo := ⟨[2], 5, [6], .commit⟩
    let v₃ : ExtendedVoteInfo := ⟨[3], 30, [5], .commit⟩
    [v₁, v₂, v₃].Perm [v₂, v₃, v₁] ∧
      ale.canonicalEvents [[1], [2]] Runtime.insertionOrder ⟨[v₁, v₂, v₃]⟩ = .ok [e₁] ∧
      SameOutcome (fun l l' => AssetsLockedEvents.equal ale.codec l l')
        (ale.canonicalEvents [[1], [2]] Runtime.insertionOrder ⟨[v₁, v₂, v₃]⟩)
        (ale.canonicalEvents [[1], [2]] Runtime.insertionOrder ⟨[v₂, v₃, v₁]⟩) := by
  intro e₁ e₂ ale v₁ v₂ v₃
  exact ⟨by decide, by decide +kernel,
    canonicalEvents_deterministic Runtime.insertionOrder Runtime.insertionOrder ⟨_⟩ _
      (by decide)⟩

end AssetsLockedExtractor

end Mezod
