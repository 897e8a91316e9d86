import Mezod.Bridge.Types.AssetsLocked
import Mezod.Lib.Quorum

/-!
# The AssetsLocked vote counter (`x/bridge/abci/proposal.go`)

`assetsLockedVoteCounter` adds up, per AssetsLocked event, the bridge and non-bridge voting power
of the votes that carry it. Its map `voteInfoMap` is keyed by `Sequence.String()`; the decimal
rendering of a `math.Int` (with `<nil>` for nil) is injective, so the model keys it by the
sequence itself and keeps it as an association list in insertion order. Within one sequence,
`addVote` looks for an info with the same recipient, amount and token bytes (`slices.IndexFunc`)
and adds to it in place, or appends a fresh one.

`Tallies ballots m` says what the map holds after the `addVote` calls `ballots`: one info per
class of `equal` events, under the class's sequence, whose counters are the class's power on
each side in `int64` arithmetic. `addVote_tallies` is its step lemma.
-/

namespace Mezod
open Go

/-- `assetsLockedVoteInfo`: the power behind one event. -/
structure AssetsLockedVoteInfo where
  event : AssetsLockedEvent
  bridgeValsVP : Int64
  nonBridgeValsVP : Int64

namespace AssetsLockedVoteInfo

/-- `newAssetsLockedVoteInfo`. -/
def new (event : AssetsLockedEvent) : AssetsLockedVoteInfo :=
  ⟨event, 0, 0⟩

/-- `add`: the power of a bridge validator goes to `bridgeValsVP`, any other to
`nonBridgeValsVP`. -/
def add (vi : AssetsLockedVoteInfo) (vp : Int64) (isBridgeVal : Bool) : AssetsLockedVoteInfo :=
  if isBridgeVal then { vi with bridgeValsVP := vi.bridgeValsVP + vp }
  else { vi with nonBridgeValsVP := vi.nonBridgeValsVP + vp }

/-- The counter of one side. -/
def sideVP (vi : AssetsLockedVoteInfo) (side : Bool) : Int64 :=
  if side then vi.bridgeValsVP else vi.nonBridgeValsVP

@[simp] theorem add_event (vi : AssetsLockedVoteInfo) (vp : Int64) (b : Bool) :
    (vi.add vp b).event = vi.event := by
  unfold add; split <;> rfl

theorem sideVP_add (vi : AssetsLockedVoteInfo) (vp : Int64) (b side : Bool) :
    (vi.add vp b).sideVP side = vi.sideVP side + if b = side then vp else 0 := by
  unfold add sideVP
  cases b <;> cases side <;> simp [Int64.add_zero]

@[simp] theorem sideVP_new (e : AssetsLockedEvent) (side : Bool) : (new e).sideVP side = 0 := by
  cases side <;> rfl

@[simp] theorem new_event (e : AssetsLockedEvent) : (new e).event = e := rfl

end AssetsLockedVoteInfo

/-- The contents of `voteInfoMap`, in insertion order. -/
abbrev VoteInfoMap := List (MathInt × List AssetsLockedVoteInfo)

namespace VoteInfoMap

/-- `m[k]`: the bucket of `k`, nil when absent. -/
def bucket : VoteInfoMap → MathInt → List AssetsLockedVoteInfo
  | [], _ => []
  | (k', b) :: rest, k => if k' = k then b else bucket rest k

/-- `m[k] = b`: an existing key keeps its place. -/
def setBucket : VoteInfoMap → MathInt → List AssetsLockedVoteInfo → VoteInfoMap
  | [], k, b => [(k, b)]
  | (k', b') :: rest, k, b => if k' = k then (k, b) :: rest else (k', b') :: setBucket rest k b

variable {m : VoteInfoMap} {k k' : MathInt} {b : List AssetsLockedVoteInfo}

@[simp] theorem bucket_setBucket_self : bucket (setBucket m k b) k = b := by
  induction m with
  | nil => simp [setBucket, bucket]
  | cons e rest ih =>
    obtain ⟨k'', b'⟩ := e
    by_cases h : k'' = k <;> simp [setBucket, bucket, h, ih]

theorem bucket_setBucket_of_ne (h : k' ≠ k) : bucket (setBucket m k b) k' = bucket m k' := by
  induction m with
  | nil => simp [setBucket, bucket, Ne.symm h]
  | cons e rest ih =>
    obtain ⟨k'', b'⟩ := e
    by_cases h' : k'' = k
    · subst h'; simp [setBucket, bucket, Ne.symm h]
    · simp only [setBucket, h', if_false, bucket, ih]

theorem keys_setBucket (m : VoteInfoMap) (k : MathInt) (b : List AssetsLockedVoteInfo) :
    (setBucket m k b).map Prod.fst = if k ∈ m.map Prod.fst then m.map Prod.fst else
      m.map Prod.fst ++ [k] := by
  induction m with
  | nil => simp [setBucket]
  | cons e rest ih =>
    obtain ⟨k'', b'⟩ := e
    by_cases h : k'' = k
    · subst h; simp [setBucket]
    · simp only [setBucket, h, if_false, List.map_cons, ih, List.mem_cons]
      by_cases hk : k ∈ rest.map Prod.fst <;> simp [hk, Ne.symm h]

theorem nodup_setBucket (hm : (m.map Prod.fst).Nodup) : ((setBucket m k b).map Prod.fst).Nodup := by
  rw [keys_setBucket]
  split
  · exact hm
  · rename_i hk
    exact hm.append (List.nodup_singleton k) (by simpa using hk)

theorem bucket_of_mem (hm : (m.map Prod.fst).Nodup) (h : (k, b) ∈ m) : bucket m k = b := by
  induction m with
  | nil => simp at h
  | cons e rest ih =>
    obtain ⟨k'', b'⟩ := e
    simp only [List.map_cons, List.nodup_cons, List.mem_map] at hm
    rcases List.mem_cons.1 h with h | h
    · cases h; simp [bucket]
    · have hne : k'' ≠ k := fun heq => hm.1 ⟨(k, b), h, heq.symm⟩
      simp [bucket, hne, ih hm.2 h]

theorem mem_of_mem_bucket {vi : AssetsLockedVoteInfo} (h : vi ∈ bucket m k) :
    (k, bucket m k) ∈ m := by
  induction m with
  | nil => simp [bucket] at h
  | cons e rest ih =>
    obtain ⟨k'', b'⟩ := e
    by_cases hk : k'' = k
    · subst hk; simp [bucket]
    · simp only [bucket, hk, if_false] at h ⊢
      exact List.mem_cons_of_mem _ (ih h)

end VoteInfoMap

/-- `assetsLockedVoteCounter`. -/
structure AssetsLockedVoteCounter where
  voteInfoMap : VoteInfoMap
  bridgeValsTotalVP : Int64
  nonBridgeValsTotalVP : Int64

/-- `newAssetsLockedVoteCounter`. -/
def newAssetsLockedVoteCounter : AssetsLockedVoteCounter :=
  ⟨[], 0, 0⟩

/-- One call of `addVote`: the event, and the power and side of the validator that carries it. -/
structure Ballot where
  event : AssetsLockedEvent
  vp : Int64
  isBridgeVal : Bool

namespace AssetsLockedVoteCounter
open VoteInfoMap
variable (codec : AddressCodec)

/-- `registerVoter`. -/
def registerVoter (c : AssetsLockedVoteCounter) (vp : Int64) (isBridgeVal : Bool) :
    AssetsLockedVoteCounter :=
  if isBridgeVal then { c with bridgeValsTotalVP := c.bridgeValsTotalVP + vp }
  else { c with nonBridgeValsTotalVP := c.nonBridgeValsTotalVP + vp }

/-- The `slices.IndexFunc` predicate of `addVote`: same recipient, amount and token bytes. -/
def sameVote (event : AssetsLockedEvent) (vi : AssetsLockedVoteInfo) : Bool :=
  event.recipient == vi.event.recipient && event.amount == vi.event.amount &&
    event.tokenBytes codec == vi.event.tokenBytes codec

/-- The bucket after `addVote`: the first info that `sameVote` picks is added to in place,
otherwise a fresh info is appended. -/
def addToBucket (event : AssetsLockedEvent) (vp : Int64) (isBridgeVal : Bool) :
    List AssetsLockedVoteInfo → List AssetsLockedVoteInfo
  | [] => [(AssetsLockedVoteInfo.new event).add vp isBridgeVal]
  | vi :: rest =>
    if sameVote codec event vi then vi.add vp isBridgeVal :: rest
    else vi :: addToBucket event vp isBridgeVal rest

/-- `addVote`. -/
def addVote (c : AssetsLockedVoteCounter) (event : AssetsLockedEvent) (vp : Int64)
    (isBridgeVal : Bool) : AssetsLockedVoteCounter :=
  let voteInfos := addToBucket codec event vp isBridgeVal (bucket c.voteInfoMap event.sequence)
  { c with voteInfoMap := setBucket c.voteInfoMap event.sequence voteInfos }

/-- `addVote` for a ballot. -/
def addBallot (c : AssetsLockedVoteCounter) (b : Ballot) : AssetsLockedVoteCounter :=
  c.addVote codec b.event b.vp b.isBridgeVal

/-- The total of one side. -/
def sideTotalVP (c : AssetsLockedVoteCounter) (side : Bool) : Int64 :=
  if side then c.bridgeValsTotalVP else c.nonBridgeValsTotalVP

@[simp] theorem registerVoter_voteInfoMap (c : AssetsLockedVoteCounter) (vp : Int64) (b : Bool) :
    (c.registerVoter vp b).voteInfoMap = c.voteInfoMap := by
  unfold registerVoter; split <;> rfl

theorem sideTotalVP_registerVoter (c : AssetsLockedVoteCounter) (vp : Int64) (b side : Bool) :
    (c.registerVoter vp b).sideTotalVP side = c.sideTotalVP side + if b = side then vp else 0 := by
  unfold registerVoter sideTotalVP
  cases b <;> cases side <;> simp [Int64.add_zero]

@[simp] theorem foldl_addBallot_sideTotalVP (c : AssetsLockedVoteCounter) (bs : List Ballot)
    (side : Bool) : (bs.foldl (addBallot codec) c).sideTotalVP side = c.sideTotalVP side := by
  induction bs generalizing c with
  | nil => rfl
  | cons b bs ih => exact ih (c.addBallot codec b)

/-- The power on one side behind the events `equal` to `e`, as exact integers. -/
def classVP (ballots : List Ballot) (side : Bool) (e : AssetsLockedEvent) : Int :=
  Quorum.weightOf (fun b => b.vp.toInt)
    (fun b => b.isBridgeVal == side && b.event.equal codec e) ballots

/-- What `voteInfoMap` holds after the `addVote` calls `ballots`. -/
structure Tallies (ballots : List Ballot) (m : VoteInfoMap) : Prop where
  keys_nodup : (m.map Prod.fst).Nodup
  sequence : ∀ k, ∀ vi ∈ bucket m k, vi.event.sequence = k
  distinct : ∀ k, (bucket m k).Pairwise fun v w => v.event.equal codec w.event = false
  vp : ∀ k, ∀ vi ∈ bucket m k, ∀ side,
    vi.sideVP side = Int64.ofInt (classVP codec ballots side vi.event)
  complete : ∀ b ∈ ballots, ∃ vi ∈ bucket m b.event.sequence, vi.event.equal codec b.event
  origin : ∀ k, ∀ vi ∈ bucket m k, ∃ b ∈ ballots, b.event = vi.event

variable {codec}

theorem sameVote_iff {e : AssetsLockedEvent} {vi : AssetsLockedVoteInfo}
    (h : vi.event.sequence = e.sequence) :
    sameVote codec e vi ↔ e.equal codec vi.event := by
  simp [sameVote, AssetsLockedEvent.equal_iff, h, and_assoc, and_comm (a := e.amount = _)]

@[simp] theorem classVP_nil (side : Bool) (e : AssetsLockedEvent) : classVP codec [] side e = 0 := rfl

theorem classVP_cons (b : Ballot) (ballots : List Ballot) (side : Bool) (e : AssetsLockedEvent) :
    classVP codec (b :: ballots) side e =
      (if b.isBridgeVal = side ∧ b.event.equal codec e then b.vp.toInt else 0) +
        classVP codec ballots side e := by
  unfold classVP
  rw [Quorum.weightOf_cons]
  congr 1
  by_cases h : b.isBridgeVal = side ∧ b.event.equal codec e
  · simp [h]
  · rw [if_neg h, if_neg (by simpa using h)]

theorem classVP_append (ballots ballots' : List Ballot) (side : Bool) (e : AssetsLockedEvent) :
    classVP codec (ballots ++ ballots') side e =
      classVP codec ballots side e + classVP codec ballots' side e :=
  Quorum.weightOf_append

theorem classVP_concat (ballots : List Ballot) (b : Ballot) (side : Bool) (e : AssetsLockedEvent) :
    classVP codec (ballots ++ [b]) side e = classVP codec ballots side e +
      if b.isBridgeVal = side ∧ b.event.equal codec e then b.vp.toInt else 0 := by
  rw [classVP_append, classVP_cons, classVP_nil, Int.add_zero]

theorem classVP_eq_zero {ballots : List Ballot} {side : Bool} {e : AssetsLockedEvent}
    (h : ∀ b ∈ ballots, b.event.equal codec e = false) : classVP codec ballots side e = 0 := by
  unfold classVP
  rw [Quorum.weightOf_congr (q := fun _ => false) (fun b hb => by simp [h b hb])]
  simp [Quorum.weightOf]

theorem classVP_congr {ballots : List Ballot} {side : Bool} {e e' : AssetsLockedEvent}
    (h : e.equal codec e') : classVP codec ballots side e = classVP codec ballots side e' := by
  unfold classVP
  refine Quorum.weightOf_congr fun b _ => ?_
  have : b.event.equal codec e = b.event.equal codec e' := by
    apply Bool.eq_iff_iff.2
    exact ⟨fun h' => AssetsLockedEvent.equal_trans h' h,
      fun h' => AssetsLockedEvent.equal_trans h' (by rw [AssetsLockedEvent.equal_comm]; exact h)⟩
  rw [this]

theorem mem_addToBucket {e : AssetsLockedEvent} {vp : Int64} {side : Bool}
    {B : List AssetsLockedVoteInfo} {vi' : AssetsLockedVoteInfo}
    (hB : B.Pairwise fun v w => ¬ (sameVote codec e v ∧ sameVote codec e w))
    (h : vi' ∈ addToBucket codec e vp side B) :
    (vi' ∈ B ∧ sameVote codec e vi' = false) ∨
      (∃ vi ∈ B, sameVote codec e vi ∧ vi' = vi.add vp side) ∨
      (vi' = (AssetsLockedVoteInfo.new e).add vp side ∧ ∀ vi ∈ B, sameVote codec e vi = false) := by
  induction B with
  | nil => simp_all [addToBucket]
  | cons vi rest ih =>
    obtain ⟨hvi, hrest⟩ := List.pairwise_cons.1 hB
    simp only [addToBucket] at h
    split at h
    · rename_i hs
      rcases List.mem_cons.1 h with rfl | h
      · exact .inr (.inl ⟨vi, List.mem_cons_self, hs, rfl⟩)
      · have hs' : sameVote codec e vi' = false := by
          simpa [hs] using hvi vi' h
        exact .inl ⟨List.mem_cons_of_mem _ h, hs'⟩
    · rename_i hs
      rcases List.mem_cons.1 h with rfl | h
      · exact .inl ⟨List.mem_cons_self, by simpa using hs⟩
      · rcases ih hrest h with ⟨h1, h2⟩ | ⟨w, hw, h2, h3⟩ | ⟨h1, h2⟩
        · exact .inl ⟨List.mem_cons_of_mem _ h1, h2⟩
        · exact .inr (.inl ⟨w, List.mem_cons_of_mem _ hw, h2, h3⟩)
        · refine .inr (.inr ⟨h1, fun w hw => ?_⟩)
          rcases List.mem_cons.1 hw with rfl | hw
          · simpa using hs
          · exact h2 w hw

theorem exists_mem_addToBucket (e : AssetsLockedEvent) (vp : Int64) (side : Bool)
    {B : List AssetsLockedVoteInfo} {vi : AssetsLockedVoteInfo} (h : vi ∈ B) :
    ∃ vi' ∈ addToBucket codec e vp side B, vi'.event = vi.event := by
  induction B with
  | nil => simp at h
  | cons w rest ih =>
    simp only [addToBucket]
    rcases List.mem_cons.1 h with rfl | h
    · split
      · exact ⟨_, List.mem_cons_self, by simp⟩
      · exact ⟨vi, List.mem_cons_self, rfl⟩
    · split
      · exact ⟨vi, List.mem_cons_of_mem _ h, rfl⟩
      · obtain ⟨vi', hm, he⟩ := ih h
        exact ⟨vi', List.mem_cons_of_mem _ hm, he⟩

theorem events_addToBucket (e : AssetsLockedEvent) (vp : Int64) (side : Bool)
    (B : List AssetsLockedVoteInfo) :
    (addToBucket codec e vp side B).map (·.event) =
      if B.any (sameVote codec e) then B.map (·.event) else B.map (·.event) ++ [e] := by
  induction B with
  | nil => simp [addToBucket, AssetsLockedVoteInfo.new]
  | cons vi rest ih =>
    simp only [addToBucket]
    by_cases hs : sameVote codec e vi
    · simp [hs]
    · simp only [hs, Bool.false_eq_true, if_false, List.map_cons, ih, List.any_cons,
        Bool.false_or]
      split <;> simp

theorem bucket_addBallot (c : AssetsLockedVoteCounter) (x : Ballot) (k : MathInt) :
    bucket (c.addBallot codec x).voteInfoMap k =
      if k = x.event.sequence then
        addToBucket codec x.event x.vp x.isBridgeVal (bucket c.voteInfoMap x.event.sequence)
      else bucket c.voteInfoMap k := by
  split
  · subst k; simp [addBallot, addVote]
  · simp [addBallot, addVote, bucket_setBucket_of_ne ‹_›]

theorem tallies_nil : Tallies codec [] newAssetsLockedVoteCounter.voteInfoMap where
  keys_nodup := List.nodup_nil
  sequence _ _ h := by simp [newAssetsLockedVoteCounter, bucket] at h
  distinct _ := by simp [newAssetsLockedVoteCounter, bucket]
  vp _ _ h := by simp [newAssetsLockedVoteCounter, bucket] at h
  complete _ h := by simp at h
  origin _ _ h := by simp [newAssetsLockedVoteCounter, bucket] at h

namespace Tallies
variable {ballots : List Ballot} {m : VoteInfoMap}

theorem sameVote_iff_equal (h : Tallies codec ballots m) {e : AssetsLockedEvent}
    {vi : AssetsLockedVoteInfo} (hvi : vi ∈ bucket m e.sequence) :
    sameVote codec e vi ↔ e.equal codec vi.event :=
  sameVote_iff (h.sequence _ vi hvi)

theorem pairwise_sameVote (h : Tallies codec ballots m) (e : AssetsLockedEvent) :
    (bucket m e.sequence).Pairwise fun v w => ¬ (sameVote codec e v ∧ sameVote codec e w) := by
  refine (h.distinct e.sequence).imp_of_mem fun {v w} hv hw hvw ⟨h1, h2⟩ => ?_
  rw [h.sameVote_iff_equal hv] at h1
  rw [h.sameVote_iff_equal hw] at h2
  have hvw' : v.event.equal codec w.event :=
    AssetsLockedEvent.equal_trans (by rw [AssetsLockedEvent.equal_comm]; exact h1) h2
  simp [hvw'] at hvw

theorem classVP_eq_zero_of_none (h : Tallies codec ballots m) {e : AssetsLockedEvent} {side : Bool}
    (hnone : ∀ vi ∈ bucket m e.sequence, sameVote codec e vi = false) :
    classVP codec ballots side e = 0 := by
  refine AssetsLockedVoteCounter.classVP_eq_zero fun b hb => ?_
  by_contra hbe
  have hbe : b.event.equal codec e := by simpa using hbe
  obtain ⟨vi, hvi, heq⟩ := h.complete b hb
  rw [AssetsLockedEvent.sequence_eq_of_equal hbe] at hvi
  have hs : ¬ e.equal codec vi.event := by
    rw [← h.sameVote_iff_equal hvi]
    simpa using hnone vi hvi
  exact hs (by rw [AssetsLockedEvent.equal_comm]; exact AssetsLockedEvent.equal_trans heq hbe)

theorem equal_eq_false_of_ne (h : Tallies codec ballots m) {k : MathInt}
    {vi : AssetsLockedVoteInfo} (hvi : vi ∈ bucket m k) {e : AssetsLockedEvent}
    (hk : k ≠ e.sequence) : e.equal codec vi.event = false := by
  by_contra he
  have he : e.equal codec vi.event := by simpa using he
  exact hk ((h.sequence k vi hvi).symm.trans (AssetsLockedEvent.sequence_eq_of_equal he).symm)

end Tallies

/-- The step lemma: `addVote` keeps `Tallies`, with its ballot appended. -/
theorem addBallot_tallies {ballots : List Ballot} {c : AssetsLockedVoteCounter} (x : Ballot)
    (h : Tallies codec ballots c.voteInfoMap) :
    Tallies codec (ballots ++ [x]) (c.addBallot codec x).voteInfoMap := by
  have hB := h.pairwise_sameVote x.event
  refine ⟨nodup_setBucket h.keys_nodup, ?_, ?_, ?_, ?_, ?_⟩
  · -- sequences
    intro k vi' hvi'
    rw [bucket_addBallot] at hvi'
    split at hvi'
    · subst k
      rcases mem_addToBucket hB hvi' with ⟨hm, -⟩ | ⟨vi, hm, -, rfl⟩ | ⟨rfl, -⟩
      · exact h.sequence _ vi' hm
      · simpa using h.sequence _ vi hm
      · simp [AssetsLockedVoteInfo.new]
    · exact h.sequence k vi' hvi'
  · -- one info per class
    intro k
    rw [bucket_addBallot]
    split
    · subst k
      have hd : ((bucket c.voteInfoMap x.event.sequence).map (·.event)).Pairwise
          fun a b => a.equal codec b = false :=
        List.pairwise_map.2 (h.distinct x.event.sequence)
      have key : ((addToBucket codec x.event x.vp x.isBridgeVal
          (bucket c.voteInfoMap x.event.sequence)).map (·.event)).Pairwise
            fun a b => a.equal codec b = false := by
        rw [events_addToBucket]
        split
        · exact hd
        · rename_i hany
          refine List.pairwise_append.2 ⟨hd, List.pairwise_singleton _ _, ?_⟩
          intro a ha b hb
          obtain ⟨vi, hvi, rfl⟩ := List.mem_map.1 ha
          rw [List.mem_singleton.1 hb, AssetsLockedEvent.equal_comm]
          have hs : ¬ x.event.equal codec vi.event := by
            rw [← h.sameVote_iff_equal hvi]
            exact fun hc => hany (List.any_eq_true.2 ⟨vi, hvi, hc⟩)
          simpa using hs
      exact List.pairwise_map.1 key
    · exact h.distinct k
  · -- the counters
    intro k vi' hvi' side
    rw [bucket_addBallot] at hvi'
    split at hvi'
    · subst k
      rcases mem_addToBucket hB hvi' with ⟨hm, hs⟩ | ⟨vi, hm, hs, rfl⟩ | ⟨rfl, hnone⟩
      · have hs' : ¬ x.event.equal codec vi'.event := by
          rw [← h.sameVote_iff_equal hm]
          simpa using hs
        rw [classVP_concat, h.vp _ vi' hm side, if_neg (by simp [hs'])]
        simp
      · rw [h.sameVote_iff_equal hm] at hs
        rw [AssetsLockedVoteInfo.sideVP_add, h.vp _ vi hm side, AssetsLockedVoteInfo.add_event,
          classVP_concat]
        by_cases hside : x.isBridgeVal = side
        · simp [hside, hs, Int64.ofInt_add]
        · simp [hside]
      · rw [AssetsLockedVoteInfo.sideVP_add, AssetsLockedVoteInfo.sideVP_new,
          AssetsLockedVoteInfo.add_event, AssetsLockedVoteInfo.new_event, classVP_concat,
          h.classVP_eq_zero_of_none hnone]
        by_cases hside : x.isBridgeVal = side
        · simp [hside]
        · simp [hside]
    · rename_i hk
      rw [classVP_concat, h.vp k vi' hvi' side, if_neg (by simp [h.equal_eq_false_of_ne hvi' hk])]
      simp
  · -- every ballot has an info
    intro b hb
    rw [bucket_addBallot]
    rcases List.mem_append.1 hb with hb | hb
    · obtain ⟨vi, hvi, heq⟩ := h.complete b hb
      split
      · rename_i hk
        rw [hk] at hvi
        obtain ⟨vi', hm, hev⟩ := exists_mem_addToBucket x.event x.vp x.isBridgeVal hvi
        exact ⟨vi', hm, hev ▸ heq⟩
      · exact ⟨vi, hvi, heq⟩
    · rw [List.mem_singleton.1 hb, if_pos rfl]
      by_cases hany : (bucket c.voteInfoMap x.event.sequence).any (sameVote codec x.event)
      · obtain ⟨vi, hvi, hs⟩ := List.any_eq_true.1 hany
        obtain ⟨vi', hm, hev⟩ := exists_mem_addToBucket x.event x.vp x.isBridgeVal hvi
        rw [h.sameVote_iff_equal hvi] at hs
        refine ⟨vi', hm, ?_⟩
        rw [hev, AssetsLockedEvent.equal_comm]
        exact hs
      · have hmem : x.event ∈ (addToBucket codec x.event x.vp x.isBridgeVal
            (bucket c.voteInfoMap x.event.sequence)).map (·.event) := by
          rw [events_addToBucket, if_neg hany]
          simp
        obtain ⟨vi', hm, hev⟩ := List.mem_map.1 hmem
        exact ⟨vi', hm, by simp [hev]⟩
  · -- every info comes from a ballot
    intro k vi' hvi'
    rw [bucket_addBallot] at hvi'
    split at hvi'
    · subst k
      rcases mem_addToBucket hB hvi' with ⟨hm, -⟩ | ⟨vi, hm, -, rfl⟩ | ⟨rfl, -⟩
      · obtain ⟨b, hb, he⟩ := h.origin _ vi' hm
        exact ⟨b, List.mem_append_left _ hb, he⟩
      · obtain ⟨b, hb, he⟩ := h.origin _ vi hm
        exact ⟨b, List.mem_append_left _ hb, by simp [he]⟩
      · exact ⟨x, List.mem_append_right _ (List.mem_singleton_self x), by simp⟩
    · obtain ⟨b, hb, he⟩ := h.origin k vi' hvi'
      exact ⟨b, List.mem_append_left _ hb, he⟩

/-- `Tallies` after a whole list of `addVote` calls. -/
theorem foldl_addBallot_tallies {ballots : List Ballot} {c : AssetsLockedVoteCounter}
    (h : Tallies codec ballots c.voteInfoMap) (xs : List Ballot) :
    Tallies codec (ballots ++ xs) (xs.foldl (addBallot codec) c).voteInfoMap := by
  induction xs generalizing ballots c with
  | nil => simpa using h
  | cons x xs ih =>
    have := ih (addBallot_tallies x h)
    simpa using this

/-! ## `canonicalEvents` -/

/-- The test of the inner loop of `canonicalEvents`: both thresholds are reached. -/
def reachesRequiredVP (requiredBridgeValsVP requiredNonBridgeValsVP : Int64)
    (voteInfo : AssetsLockedVoteInfo) : Bool :=
  decide (voteInfo.bridgeValsVP ≥ requiredBridgeValsVP) &&
    decide (voteInfo.nonBridgeValsVP ≥ requiredNonBridgeValsVP)

/-- The events of one sequence's infos that reach both thresholds. -/
def superMajorityEvents (requiredBridgeValsVP requiredNonBridgeValsVP : Int64)
    (voteInfos : List AssetsLockedVoteInfo) : List AssetsLockedEvent :=
  (voteInfos.filter (reachesRequiredVP requiredBridgeValsVP requiredNonBridgeValsVP)).map (·.event)

/-- The body of the `range` loop over `voteInfoMap`. -/
def collectSuperMajority (requiredBridgeValsVP requiredNonBridgeValsVP : Int64)
    (canonical : List AssetsLockedEvent) (entry : MathInt × List AssetsLockedVoteInfo) :
    Except GoError (List AssetsLockedEvent) :=
  match superMajorityEvents requiredBridgeValsVP requiredNonBridgeValsVP entry.2 with
  | [] => .ok canonical
  | [e] => .ok (canonical ++ [e])
  | _ => .error (.panic "multiple canonical AssetsLocked events for the same sequence")

/-- The threshold `((total * 2) / 3) + 1` of `canonicalEvents`, in `int64` arithmetic. -/
def requiredVP (total : Int64) : Int64 :=
  total * 2 / 3 + 1

theorem requiredVP_toInt {total : Int} (h0 : 0 ≤ total) (h : total * 2 < 2 ^ 63) :
    (requiredVP (Int64.ofInt total)).toInt = Quorum.superMajority total := by
  have hx : (Int64.ofInt total).toInt = total := Int64.toInt_ofInt_of_le (by omega) (by omega)
  have h2 : (Int64.ofInt total * 2).toInt = total * 2 := by
    rw [Int64.toInt_mul, hx]
    exact Int.bmod_eq_of_le (by simp; omega) (by simp; omega)
  have h3 : (Int64.ofInt total * 2 / 3).toInt = total * 2 / 3 := by
    rw [Int64.toInt_div, h2, Int.tdiv_eq_ediv_of_nonneg (by omega)]
    exact Int.bmod_eq_of_le (by simp; omega) (by simp; omega)
  unfold requiredVP Quorum.superMajority
  rw [Int64.toInt_add, h3]
  exact Int.bmod_eq_of_le (by simp; omega) (by simp; omega)

/-- The sort key of `canonicalEvents`: `a.Sequence.BigInt().Cmp(b.Sequence.BigInt())`. Every
event that reaches the sort is valid, so the nil that `Cmp` would dereference does not occur and
`getD` never applies. -/
def sequenceKey (e : AssetsLockedEvent) : Int :=
  e.sequence.getD 0

/-- `canonicalEvents`. -/
def canonicalEvents (rt : Runtime) (c : AssetsLockedVoteCounter) :
    Except GoError (List AssetsLockedEvent) :=
  if c.bridgeValsTotalVP ≤ 0 ∨ c.nonBridgeValsTotalVP ≤ 0 then .ok [] else do
    let requiredBridgeValsVP := requiredVP c.bridgeValsTotalVP
    let requiredNonBridgeValsVP := requiredVP c.nonBridgeValsTotalVP
    let canonical ← (rt.rangeOrder c.voteInfoMap).foldlM
      (collectSuperMajority requiredBridgeValsVP requiredNonBridgeValsVP) []
    let sorted := rt.sortFunc sequenceKey canonical
    if AssetsLockedEvents.isStrictlyIncreasingSequence sorted then pure sorted
    else throw (.error "canonical events sequence is not strictly increasing")

section canonicalEvents
variable {reqB reqN : Int64}

theorem mem_superMajorityEvents {voteInfos : List AssetsLockedVoteInfo} {e : AssetsLockedEvent} :
    e ∈ superMajorityEvents reqB reqN voteInfos ↔
      ∃ vi ∈ voteInfos, reqB ≤ vi.bridgeValsVP ∧ reqN ≤ vi.nonBridgeValsVP ∧ vi.event = e := by
  simp [superMajorityEvents, reachesRequiredVP, and_assoc]

theorem collectSuperMajority_eq (acc : List AssetsLockedEvent)
    (entry : MathInt × List AssetsLockedVoteInfo) :
    collectSuperMajority reqB reqN acc entry =
      if (superMajorityEvents reqB reqN entry.2).length ≤ 1 then
        .ok (acc ++ superMajorityEvents reqB reqN entry.2)
      else .error (.panic "multiple canonical AssetsLocked events for the same sequence") := by
  unfold collectSuperMajority
  split
  · rename_i h; simp [h]
  · rename_i e h; simp [h]
  · rename_i hmany hone
    have hlen : ¬ (superMajorityEvents reqB reqN entry.2).length ≤ 1 := by
      intro hle
      match h : superMajorityEvents reqB reqN entry.2, hle with
      | [], _ => exact hmany h
      | [e], _ => exact hone e h
    simp [hlen]

/-- The range loop panics exactly when some sequence has two events at a super-majority, and
otherwise collects the super-majority events in the order it visits the sequences. -/
theorem foldlM_collectSuperMajority (entries : VoteInfoMap) (acc : List AssetsLockedEvent) :
    entries.foldlM (collectSuperMajority reqB reqN) acc =
      if ∀ entry ∈ entries, (superMajorityEvents reqB reqN entry.2).length ≤ 1 then
        .ok (acc ++ entries.flatMap fun entry => superMajorityEvents reqB reqN entry.2)
      else .error (.panic "multiple canonical AssetsLocked events for the same sequence") := by
  induction entries generalizing acc with
  | nil => simp; rfl
  | cons entry rest ih =>
    rw [List.foldlM_cons, collectSuperMajority_eq]
    by_cases hone : (superMajorityEvents reqB reqN entry.2).length ≤ 1
    · by_cases hrest : ∀ e ∈ rest, (superMajorityEvents reqB reqN e.2).length ≤ 1
      · have hall : ∀ e ∈ entry :: rest, (superMajorityEvents reqB reqN e.2).length ≤ 1 :=
          List.forall_mem_cons.2 ⟨hone, hrest⟩
        rw [if_pos hone, except_bind_ok, ih, if_pos hrest, if_pos hall]
        simp
      · have hall : ¬ ∀ e ∈ entry :: rest, (superMajorityEvents reqB reqN e.2).length ≤ 1 :=
          fun h => hrest (List.forall_mem_cons.1 h).2
        simp only [hone, if_true, except_bind_ok, ih, if_neg hrest, if_neg hall]
    · simp [hone]

/-- The events the range loop collects, in the order it visits the sequences. -/
def collected (rt : Runtime) (c : AssetsLockedVoteCounter) : List AssetsLockedEvent :=
  (rt.rangeOrder c.voteInfoMap).flatMap fun entry =>
    superMajorityEvents (requiredVP c.bridgeValsTotalVP) (requiredVP c.nonBridgeValsTotalVP) entry.2

/-- No sequence has two events at both super-majorities. -/
def AtMostOnePerSequence (c : AssetsLockedVoteCounter) : Prop :=
  ∀ entry ∈ c.voteInfoMap, (superMajorityEvents (requiredVP c.bridgeValsTotalVP)
    (requiredVP c.nonBridgeValsTotalVP) entry.2).length ≤ 1

theorem canonicalEvents_of_nonpos (rt : Runtime) {c : AssetsLockedVoteCounter}
    (h : c.bridgeValsTotalVP ≤ 0 ∨ c.nonBridgeValsTotalVP ≤ 0) : canonicalEvents rt c = .ok [] := by
  unfold canonicalEvents
  rw [if_pos h]

instance (c : AssetsLockedVoteCounter) : Decidable (AtMostOnePerSequence c) :=
  inferInstanceAs (Decidable (∀ entry ∈ c.voteInfoMap, (superMajorityEvents
    (requiredVP c.bridgeValsTotalVP) (requiredVP c.nonBridgeValsTotalVP) entry.2).length ≤ 1))

/-- The spec of `canonicalEvents`: with both totals positive, the loop's panic condition, the
sort and the final check. -/
theorem canonicalEvents_eq (rt : Runtime) (c : AssetsLockedVoteCounter)
    (hpos : ¬ (c.bridgeValsTotalVP ≤ 0 ∨ c.nonBridgeValsTotalVP ≤ 0)) :
    canonicalEvents rt c =
      if AtMostOnePerSequence c then
        if AssetsLockedEvents.isStrictlyIncreasingSequence (rt.sortFunc sequenceKey (collected rt c))
        then .ok (rt.sortFunc sequenceKey (collected rt c))
        else .error (.error "canonical events sequence is not strictly increasing")
      else .error (.panic "multiple canonical AssetsLocked events for the same sequence") := by
  unfold canonicalEvents
  rw [if_neg hpos]
  dsimp only
  rw [foldlM_collectSuperMajority]
  have hcond : ∀ (P : MathInt × List AssetsLockedVoteInfo → Prop),
      (∀ entry ∈ rt.rangeOrder c.voteInfoMap, P entry) ↔ ∀ entry ∈ c.voteInfoMap, P entry :=
    fun P => ⟨fun h e he => h e ((rt.rangeOrder_perm _).mem_iff.2 he),
      fun h e he => h e ((rt.rangeOrder_perm _).mem_iff.1 he)⟩
  by_cases hall : AtMostOnePerSequence c
  · rw [if_pos ((hcond _).2 hall), if_pos hall]
    simp only [List.nil_append, except_bind_ok]
    rfl
  · rw [if_neg (mt (hcond _).1 hall), if_neg hall]
    rfl

theorem exists_voteInfo_of_mem_canonicalEvents {rt : Runtime} {c : AssetsLockedVoteCounter}
    {events : List AssetsLockedEvent} (h : canonicalEvents rt c = .ok events)
    {e : AssetsLockedEvent} (he : e ∈ events) :
    ¬ (c.bridgeValsTotalVP ≤ 0 ∨ c.nonBridgeValsTotalVP ≤ 0) ∧
      ∃ entry ∈ c.voteInfoMap, ∃ vi ∈ entry.2,
        requiredVP c.bridgeValsTotalVP ≤ vi.bridgeValsVP ∧
        requiredVP c.nonBridgeValsTotalVP ≤ vi.nonBridgeValsVP ∧ vi.event = e := by
  by_cases hpos : c.bridgeValsTotalVP ≤ 0 ∨ c.nonBridgeValsTotalVP ≤ 0
  · rw [canonicalEvents_of_nonpos rt hpos] at h
    cases h
    simp at he
  refine ⟨hpos, ?_⟩
  rw [canonicalEvents_eq rt c hpos] at h
  split at h
  · split at h
    · cases h
      have he' := (rt.sortFunc_perm _ _).mem_iff.1 he
      obtain ⟨entry, hentry, he''⟩ := List.mem_flatMap.1 he'
      exact ⟨entry, (rt.rangeOrder_perm _).mem_iff.1 hentry, mem_superMajorityEvents.1 he''⟩
    · cases h
  · cases h

theorem isStrictlyIncreasingSequence_of_canonicalEvents {rt : Runtime} {c : AssetsLockedVoteCounter}
    {events : List AssetsLockedEvent} (h : canonicalEvents rt c = .ok events) :
    AssetsLockedEvents.isStrictlyIncreasingSequence events := by
  by_cases hpos : c.bridgeValsTotalVP ≤ 0 ∨ c.nonBridgeValsTotalVP ≤ 0
  · rw [canonicalEvents_of_nonpos rt hpos] at h
    cases h
    rfl
  rw [canonicalEvents_eq rt c hpos] at h
  split at h
  · split at h
    · cases h; assumption
    · cases h
  · cases h

theorem canonicalEvents_ne_panic {rt : Runtime} {c : AssetsLockedVoteCounter}
    (h : AtMostOnePerSequence c) (msg : String) : canonicalEvents rt c ≠ .error (.panic msg) := by
  by_cases hpos : c.bridgeValsTotalVP ≤ 0 ∨ c.nonBridgeValsTotalVP ≤ 0
  · simp [canonicalEvents_of_nonpos rt hpos]
  rw [canonicalEvents_eq rt c hpos]
  simp only [if_pos h]
  split <;> simp

end canonicalEvents

/-! ## Determinism

`canonicalEvents` reads the map only through the classes it tallies: two tallies of the same
ballots, in any order, hold the same classes with the same counters, under the same sequences.
So whichever order `range` visits the map in and however the sort arranges its input, the panic
is reached by both or neither, and the sorted lists pair off position by position. -/

section determinism
variable {bs bs' : List Ballot} {m m' : VoteInfoMap}

theorem classVP_perm (hp : bs.Perm bs') (side : Bool) (e : AssetsLockedEvent) :
    classVP codec bs side e = classVP codec bs' side e :=
  Quorum.weightOf_perm hp

theorem reachesRequiredVP_congr {r r' : Int64} {vi vi' : AssetsLockedVoteInfo}
    (h : ∀ side, vi'.sideVP side = vi.sideVP side) :
    reachesRequiredVP r r' vi' = reachesRequiredVP r r' vi := by
  have hb := h true
  have hn := h false
  simp only [AssetsLockedVoteInfo.sideVP, if_true, Bool.false_eq_true, if_false] at hb hn
  simp [reachesRequiredVP, hb, hn]

namespace Tallies

theorem exists_counterpart (h : Tallies codec bs m) (h' : Tallies codec bs' m') (hp : bs.Perm bs')
    {k : MathInt} {vi : AssetsLockedVoteInfo} (hvi : vi ∈ bucket m k) :
    ∃ vi' ∈ bucket m' k, vi'.event.equal codec vi.event ∧
      ∀ side, vi'.sideVP side = vi.sideVP side := by
  obtain ⟨b, hb, hbe⟩ := h.origin k vi hvi
  obtain ⟨vi', hvi', heq⟩ := h'.complete b (hp.mem_iff.1 hb)
  rw [hbe, h.sequence k vi hvi] at hvi'
  rw [hbe] at heq
  refine ⟨vi', hvi', heq, fun side => ?_⟩
  rw [h'.vp k vi' hvi' side, h.vp k vi hvi side, classVP_congr heq, classVP_perm hp]

theorem isSome_sequence (h : Tallies codec bs m) (hset : ∀ b ∈ bs, b.event.sequence.isSome)
    {k : MathInt} {vi : AssetsLockedVoteInfo} (hvi : vi ∈ bucket m k) :
    vi.event.sequence.isSome := by
  obtain ⟨b, hb, hbe⟩ := h.origin k vi hvi
  exact hbe ▸ hset b hb

variable {c c' : AssetsLockedVoteCounter}

theorem atMostOnePerSequence_iff (h : Tallies codec bs c.voteInfoMap) :
    AtMostOnePerSequence c ↔ ∀ k, ∀ vi ∈ bucket c.voteInfoMap k, ∀ wi ∈ bucket c.voteInfoMap k,
      reachesRequiredVP (requiredVP c.bridgeValsTotalVP) (requiredVP c.nonBridgeValsTotalVP) vi →
      reachesRequiredVP (requiredVP c.bridgeValsTotalVP) (requiredVP c.nonBridgeValsTotalVP) wi →
      vi.event.equal codec wi.event := by
  constructor
  · -- a bucket with at most one passing info
    intro hone k vi hvi wi hwi hpv hpw
    have hlen := hone _ (VoteInfoMap.mem_of_mem_bucket hvi)
    unfold superMajorityEvents at hlen
    rw [List.length_map] at hlen
    have hvi' : vi ∈ (bucket c.voteInfoMap k).filter (reachesRequiredVP (requiredVP
        c.bridgeValsTotalVP) (requiredVP c.nonBridgeValsTotalVP)) := List.mem_filter.2 ⟨hvi, hpv⟩
    have hwi' : wi ∈ (bucket c.voteInfoMap k).filter (reachesRequiredVP (requiredVP
        c.bridgeValsTotalVP) (requiredVP c.nonBridgeValsTotalVP)) := List.mem_filter.2 ⟨hwi, hpw⟩
    match hF : (bucket c.voteInfoMap k).filter (reachesRequiredVP (requiredVP
        c.bridgeValsTotalVP) (requiredVP c.nonBridgeValsTotalVP)), hlen with
    | [], _ => simp [hF] at hvi'
    | [x], _ =>
      rw [hF, List.mem_singleton] at hvi' hwi'
      subst hvi' hwi'
      exact AssetsLockedEvent.equal_refl _
  · -- two passing infos would be of one class, which `distinct` rules out
    intro hcls entry hentry
    obtain ⟨k, B⟩ := entry
    have hB : bucket c.voteInfoMap k = B := VoteInfoMap.bucket_of_mem h.keys_nodup hentry
    let P := reachesRequiredVP (requiredVP c.bridgeValsTotalVP) (requiredVP c.nonBridgeValsTotalVP)
    have hd : (B.filter P).Pairwise fun v w => v.event.equal codec w.event = false :=
      hB ▸ (h.distinct k).filter P
    have hmem : ∀ vi ∈ B.filter P, vi ∈ bucket c.voteInfoMap k ∧ P vi := fun vi hvi =>
      ⟨hB ▸ (List.mem_filter.1 hvi).1, (List.mem_filter.1 hvi).2⟩
    unfold superMajorityEvents
    rw [List.length_map]
    match hl : B.filter P, hd with
    | [], _ => simp
    | [_], _ => simp
    | vi :: wi :: rest, hd =>
      exfalso
      have hne := List.rel_of_pairwise_cons hd List.mem_cons_self
      obtain ⟨hvi, hvp⟩ := hmem vi (hl ▸ List.mem_cons_self)
      obtain ⟨hwi, hwp⟩ := hmem wi (hl ▸ List.mem_cons_of_mem _ List.mem_cons_self)
      simp [hcls k vi hvi wi hwi hvp hwp] at hne

theorem atMostOnePerSequence_of_perm (h : Tallies codec bs c.voteInfoMap)
    (h' : Tallies codec bs' c'.voteInfoMap) (hp : bs.Perm bs')
    (htot : ∀ side, c.sideTotalVP side = c'.sideTotalVP side) (hone : AtMostOnePerSequence c) :
    AtMostOnePerSequence c' := by
  have hb : c.bridgeValsTotalVP = c'.bridgeValsTotalVP := htot true
  have hn : c.nonBridgeValsTotalVP = c'.nonBridgeValsTotalVP := htot false
  rw [h.atMostOnePerSequence_iff] at hone
  rw [h'.atMostOnePerSequence_iff]
  intro k vi' hvi' wi' hwi' hpv hpw
  obtain ⟨vi, hvi, hve, hvs⟩ := h'.exists_counterpart h hp.symm hvi'
  obtain ⟨wi, hwi, hwe, hws⟩ := h'.exists_counterpart h hp.symm hwi'
  rw [← hb, ← hn, ← reachesRequiredVP_congr hvs] at hpv
  rw [← hb, ← hn, ← reachesRequiredVP_congr hws] at hpw
  have hvw := hone k vi hvi wi hwi hpv hpw
  rw [AssetsLockedEvent.equal_comm] at hve
  exact AssetsLockedEvent.equal_trans (AssetsLockedEvent.equal_trans hve hvw) hwe

theorem mem_collected (h : Tallies codec bs c.voteInfoMap) (rt : Runtime) {a : AssetsLockedEvent} :
    a ∈ collected rt c ↔ ∃ k, ∃ vi ∈ bucket c.voteInfoMap k,
      reachesRequiredVP (requiredVP c.bridgeValsTotalVP) (requiredVP c.nonBridgeValsTotalVP) vi ∧
      vi.event = a := by
  simp only [collected, List.mem_flatMap, (rt.rangeOrder_perm _).mem_iff, superMajorityEvents,
    List.mem_map, List.mem_filter]
  constructor
  · rintro ⟨⟨k, B⟩, hentry, vi, ⟨hvi, hp⟩, rfl⟩
    exact ⟨k, vi, VoteInfoMap.bucket_of_mem h.keys_nodup hentry ▸ hvi, hp, rfl⟩
  · rintro ⟨k, vi, hvi, hp, rfl⟩
    exact ⟨_, VoteInfoMap.mem_of_mem_bucket hvi, vi, ⟨hvi, hp⟩, rfl⟩

theorem exists_equal_mem_collected (h : Tallies codec bs c.voteInfoMap)
    (h' : Tallies codec bs' c'.voteInfoMap) (hp : bs.Perm bs')
    (htot : ∀ side, c.sideTotalVP side = c'.sideTotalVP side) (rt rt' : Runtime)
    {a : AssetsLockedEvent} (ha : a ∈ collected rt c) :
    ∃ b ∈ collected rt' c', b.equal codec a := by
  obtain ⟨k, vi, hvi, hpv, rfl⟩ := (h.mem_collected rt).1 ha
  obtain ⟨vi', hvi', hve, hvs⟩ := h.exists_counterpart h' hp hvi
  have hb : c.bridgeValsTotalVP = c'.bridgeValsTotalVP := htot true
  have hn : c.nonBridgeValsTotalVP = c'.nonBridgeValsTotalVP := htot false
  rw [hb, hn, ← reachesRequiredVP_congr hvs] at hpv
  exact ⟨vi'.event, (h'.mem_collected rt').2 ⟨k, vi', hvi', hpv, rfl⟩, hve⟩

theorem nodup_sequenceKey_collected (h : Tallies codec bs c.voteInfoMap)
    (hset : ∀ b ∈ bs, b.event.sequence.isSome) (hone : AtMostOnePerSequence c) (rt : Runtime) :
    ((collected rt c).map sequenceKey).Nodup := by
  -- the key of an event collected from an entry is the entry's key
  have hkey : ∀ entry ∈ rt.rangeOrder c.voteInfoMap, ∀ x ∈ (superMajorityEvents
      (requiredVP c.bridgeValsTotalVP) (requiredVP c.nonBridgeValsTotalVP) entry.2).map sequenceKey,
      entry.1 = some x := by
    rintro ⟨k, B⟩ hentry x hx
    obtain ⟨a, ha, rfl⟩ := List.mem_map.1 hx
    obtain ⟨vi, hvi, -, -, rfl⟩ := mem_superMajorityEvents.1 ha
    have hB : bucket c.voteInfoMap k = B :=
      VoteInfoMap.bucket_of_mem h.keys_nodup ((rt.rangeOrder_perm _).mem_iff.1 hentry)
    have hvi : vi ∈ bucket c.voteInfoMap k := hB ▸ hvi
    have hseq := h.sequence k vi hvi
    obtain ⟨n, hn⟩ := Option.isSome_iff_exists.1 (h.isSome_sequence hset hvi)
    show k = some (vi.event.sequence.getD 0)
    rw [← hseq, hn]
    rfl
  rw [collected, List.map_flatMap, List.nodup_flatMap]
  constructor
  · -- each entry gives at most one event
    intro entry hentry
    have hlen := hone entry ((rt.rangeOrder_perm _).mem_iff.1 hentry)
    rw [← List.length_map (f := sequenceKey)] at hlen
    match hl : (superMajorityEvents (requiredVP c.bridgeValsTotalVP)
        (requiredVP c.nonBridgeValsTotalVP) entry.2).map sequenceKey, hlen with
    | [], _ => exact List.nodup_nil
    | [x], _ => exact List.nodup_singleton x
  · -- entries have distinct keys
    have hnd : ((rt.rangeOrder c.voteInfoMap).map Prod.fst).Nodup :=
      ((rt.rangeOrder_perm _).map Prod.fst).nodup_iff.2 h.keys_nodup
    refine (List.pairwise_map.1 hnd).imp_of_mem fun {e₁ e₂} he₁ he₂ hne x hx₁ hx₂ => hne ?_
    rw [hkey e₁ he₁ x hx₁, hkey e₂ he₂ x hx₂]

end Tallies

/-- Two tallies of the same ballots, in any order, with the same totals, give the same outcome
under any two runtimes: the same failure, or lists that are `Equal`. -/
theorem canonicalEvents_sameOutcome (rt rt' : Runtime) {c c' : AssetsLockedVoteCounter}
    (h : Tallies codec bs c.voteInfoMap) (h' : Tallies codec bs' c'.voteInfoMap)
    (hp : bs.Perm bs') (hset : ∀ b ∈ bs, b.event.sequence.isSome)
    (htot : ∀ side, c.sideTotalVP side = c'.sideTotalVP side) :
    SameOutcome (fun l l' => AssetsLockedEvents.equal codec l l')
      (canonicalEvents rt c) (canonicalEvents rt' c') := by
  have hb : c.bridgeValsTotalVP = c'.bridgeValsTotalVP := htot true
  have hn : c.nonBridgeValsTotalVP = c'.nonBridgeValsTotalVP := htot false
  by_cases hpos : c.bridgeValsTotalVP ≤ 0 ∨ c.nonBridgeValsTotalVP ≤ 0
  · rw [canonicalEvents_of_nonpos rt hpos, canonicalEvents_of_nonpos rt' (hb ▸ hn ▸ hpos)]
    exact AssetsLockedEvents.equal_refl []
  rw [canonicalEvents_eq rt c hpos, canonicalEvents_eq rt' c' (hb ▸ hn ▸ hpos)]
  by_cases hone : AtMostOnePerSequence c
  swap
  · have hone' : ¬ AtMostOnePerSequence c' := fun h1 =>
      hone (h'.atMostOnePerSequence_of_perm h hp.symm (fun side => (htot side).symm) h1)
    rw [if_neg hone, if_neg hone']
    rfl
  have hone' := h.atMostOnePerSequence_of_perm h' hp htot hone
  have hset' : ∀ b ∈ bs', b.event.sequence.isSome := fun b hb => hset b (hp.mem_iff.2 hb)
  rw [if_pos hone, if_pos hone']
  -- the two sorted lists pair off position by position
  have hF : List.Forall₂ (fun a b => a.equal codec b)
      (rt.sortFunc sequenceKey (collected rt c)) (rt'.sortFunc sequenceKey (collected rt' c')) := by
    refine KeySorted.forall₂_of_pairwise_lt
      (fun a b hab => show sequenceKey a = sequenceKey b by
        rw [sequenceKey, sequenceKey, AssetsLockedEvent.sequence_eq_of_equal hab])
      (rt.sortFunc_pairwise_lt _ (h.nodup_sequenceKey_collected hset hone rt))
      (rt'.sortFunc_pairwise_lt _ (h'.nodup_sequenceKey_collected hset' hone' rt')) ?_ ?_
    · intro a ha
      obtain ⟨b, hb, hba⟩ := h.exists_equal_mem_collected h' hp htot rt rt'
        ((rt.sortFunc_perm _ _).mem_iff.1 ha)
      exact ⟨b, (rt'.sortFunc_perm _ _).mem_iff.2 hb, by rw [AssetsLockedEvent.equal_comm]; exact hba⟩
    · intro b hb
      obtain ⟨a, ha, hab⟩ := h'.exists_equal_mem_collected h hp.symm (fun side => (htot side).symm)
        rt' rt ((rt'.sortFunc_perm _ _).mem_iff.1 hb)
      exact ⟨a, (rt.sortFunc_perm _ _).mem_iff.2 ha, hab⟩
  rw [AssetsLockedEvents.isStrictlyIncreasingSequence_congr
    (AssetsLockedEvents.map_sequence_of_forall₂ hF)]
  split
  · exact AssetsLockedEvents.equal_iff_forall₂.2 hF
  · rfl

end determinism

end AssetsLockedVoteCounter

end Mezod
