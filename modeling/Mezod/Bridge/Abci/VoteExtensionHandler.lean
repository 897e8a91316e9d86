import Mezod.Bridge.Abci.Proposal
import Mezod.Sidecar.AssetsLocked

/-! # The bridge vote-extension handlers (`x/bridge/abci/vote_extension.go`)

`ExtendVote` asks the sidecar for the events after the sequence tip, read off the proposal's
injected events when there are some and from the store otherwise, and puts them in the vote
extension when they pass `validateAssetsLockedEvents`. `VerifyVoteExtension` accepts an empty
extension and one that decodes to a list passing the same check.

Both sides run the same check, so what an honest validator extends every validator accepts
(`extendVote_verifyVoteExtension`), once gogoproto reads back the events it writes: those whose
integers are set and fit `MaxBitLen`, as the sidecar's answers do. Against a sidecar whose cache
is valid, after any run of its calls, `ExtendVote` returns for every non-negative tip, and so the
bridge part of an honest vote is present and accepted (`extendVote_sidecar_accepted`). -/

namespace Mezod
open Go

/-- The bridge `VoteExtensionHandler`. The sidecar client answers a half-open range of sequences;
the gogoproto codecs come with it. -/
structure VoteExtensionHandler (σ : Type) where
  sidecarClient : MathInt → MathInt → Except String (List AssetsLockedEvent)
  keeper : BridgeKeeper σ
  codec : AddressCodec
  injectedTxProto : Proto InjectedTx
  voteExtensionProto : Proto VoteExtension

namespace VoteExtensionHandler
variable {σ : Type} (veh : VoteExtensionHandler σ)

/-- The sequence tip of the proposal's injected events, when its first transaction is one. A
missing injected tx and a nil sequence both give a nil tip. -/
def injectedSequenceTip : List Bytes → Except GoError MathInt
  | tx :: _ =>
    if tx.isEmpty then .ok none
    else match veh.injectedTxProto.unmarshal tx with
      | .error err => .error (.error ("failed to unmarshal injected tx: " ++ err))
      | .ok injectedTx =>
        match injectedTx.assetsLockedEvents.getLast? with
        | none => .error (.error "no AssetsLocked events in the injected tx")
        | some last => .ok last.sequence
  | [] => .ok none

/-- The sequence tip `ExtendVote` continues from: a nil injected tip falls back to the stored
one. -/
def sequenceTip (s : σ) (injectedTip : MathInt) : Int :=
  injectedTip.getD (veh.keeper.getAssetsLockedSequenceTip s)

/-- `ExtendVoteHandler`: the bytes of the bridge part of the vote extension. -/
def extendVoteHandler (s : σ) (req : RequestExtendVote) : Except GoError Bytes :=
  match veh.injectedSequenceTip req.txs with
  | .error e => .error e
  | .ok injectedTip =>
    let sequenceStart := veh.sequenceTip s injectedTip + 1
    let sequenceEnd := sequenceStart + assetsLockedEventsLimit
    match veh.sidecarClient (some sequenceStart) (some sequenceEnd) with
    | .error err =>
      .error (.error ("failed to fetch AssetsLocked events from the sidecar: " ++ err))
    | .ok events =>
      match validateAssetsLockedEvents veh.codec events with
      | .error err => .error (.error err)
      | .ok () =>
        match veh.voteExtensionProto.marshal ⟨events⟩ with
        | .error err => .error (.error ("failed to marshal vote extension: " ++ err))
        | .ok voteExtensionBytes => .ok voteExtensionBytes

/-- `VerifyVoteExtensionHandler`. It reads no state; a REJECT returned with an error is the
error. -/
def verifyVoteExtensionHandler (_ : σ) (req : RequestVerifyVoteExtension) :
    Except GoError VerifyStatus :=
  if req.voteExtension.isEmpty then .ok .accept
  else match veh.voteExtensionProto.unmarshal req.voteExtension with
    | .error err => .error (.error ("failed to unmarshal vote extension: " ++ err))
    | .ok voteExtension =>
      match validateAssetsLockedEvents veh.codec voteExtension.assetsLockedEvents with
      | .error err => .error (.error err)
      | .ok () => .ok .accept

/-- The sidecar client answers with `math.Int`s of at most `MaxBitLen` bits, as gogoproto's
`Unmarshal` of a gRPC response leaves them. -/
def AnswersWithinMaxBitLen : Prop :=
  ∀ sequenceStart sequenceEnd events,
    veh.sidecarClient sequenceStart sequenceEnd = .ok events → ∀ e ∈ events, e.withinMaxBitLen

/-! ## Spec lemmas -/

variable {veh} {s : σ}

/-- What `VerifyVoteExtension` accepts: an empty extension, or one that decodes to events
passing the check. Every other answer is an error, never a bare REJECT. -/
theorem verifyVoteExtensionHandler_eq_ok {req : RequestVerifyVoteExtension}
    {status : VerifyStatus} (h : veh.verifyVoteExtensionHandler s req = .ok status) :
    status = .accept ∧ (req.voteExtension = [] ∨ ∃ voteExtension,
      veh.voteExtensionProto.unmarshal req.voteExtension = .ok voteExtension ∧
      validateAssetsLockedEvents veh.codec voteExtension.assetsLockedEvents = .ok ()) := by
  unfold verifyVoteExtensionHandler at h
  split at h
  · rename_i hempty
    cases h
    exact ⟨rfl, .inl (List.isEmpty_iff.1 hempty)⟩
  split at h
  · cases h
  rename_i voteExtension hve
  split at h
  · cases h
  rename_i hval
  cases h
  exact ⟨rfl, .inr ⟨voteExtension, hve, hval⟩⟩

theorem verifyVoteExtensionHandler_of_valid {req : RequestVerifyVoteExtension}
    {voteExtension : VoteExtension}
    (hve : veh.voteExtensionProto.unmarshal req.voteExtension = .ok voteExtension)
    (hval : validateAssetsLockedEvents veh.codec voteExtension.assetsLockedEvents = .ok ()) :
    veh.verifyVoteExtensionHandler s req = .ok .accept := by
  unfold verifyVoteExtensionHandler
  split
  · rfl
  rw [hve]
  dsimp only
  rw [hval]

/-- What `ExtendVote` returned: the marshalled events the sidecar gave for the range after the
tip, which passed the check. -/
theorem extendVoteHandler_eq_ok {req : RequestExtendVote} {bytes : Bytes}
    (h : veh.extendVoteHandler s req = .ok bytes) :
    ∃ injectedTip events, veh.injectedSequenceTip req.txs = .ok injectedTip ∧
      veh.sidecarClient (some (veh.sequenceTip s injectedTip + 1))
        (some (veh.sequenceTip s injectedTip + 1 + assetsLockedEventsLimit)) = .ok events ∧
      validateAssetsLockedEvents veh.codec events = .ok () ∧
      veh.voteExtensionProto.marshal ⟨events⟩ = .ok bytes := by
  unfold extendVoteHandler at h
  split at h
  · cases h
  rename_i injectedTip htip
  dsimp only at h
  split at h
  · cases h
  rename_i events hevents
  split at h
  · cases h
  rename_i hval
  split at h
  · cases h
  rename_i hmarshal
  cases h
  exact ⟨injectedTip, events, htip, hevents, hval, hmarshal⟩

theorem extendVoteHandler_of_events {req : RequestExtendVote} {injectedTip : MathInt}
    {events : List AssetsLockedEvent} {bytes : Bytes}
    (htip : veh.injectedSequenceTip req.txs = .ok injectedTip)
    (hevents : veh.sidecarClient (some (veh.sequenceTip s injectedTip + 1))
      (some (veh.sequenceTip s injectedTip + 1 + assetsLockedEventsLimit)) = .ok events)
    (hval : validateAssetsLockedEvents veh.codec events = .ok ())
    (hmarshal : veh.voteExtensionProto.marshal ⟨events⟩ = .ok bytes) :
    veh.extendVoteHandler s req = .ok bytes := by
  unfold extendVoteHandler
  rw [htip]
  dsimp only
  rw [hevents]
  dsimp only
  rw [hval]
  dsimp only
  rw [hmarshal]

/-! ## The validator that extends and the validators that verify agree -/

/-- What an honest validator extends, every validator accepts, in any state: the extension is
empty, or it decodes to the events `ExtendVote` checked. -/
theorem extendVote_verifyVoteExtension
    (hproto : veh.voteExtensionProto.RoundTripsOn fun voteExtension => voteExtension.readsBack)
    (hwithin : veh.AnswersWithinMaxBitLen) {req : RequestExtendVote} {bytes : Bytes}
    (h : veh.extendVoteHandler s req = .ok bytes)
    (s' : σ) (req' : RequestVerifyVoteExtension) (hbytes : req'.voteExtension = bytes) :
    veh.verifyVoteExtensionHandler s' req' = .ok .accept := by
  obtain ⟨injectedTip, events, -, hevents, hval, hmarshal⟩ := extendVoteHandler_eq_ok h
  subst hbytes
  have hback : VoteExtension.readsBack ⟨events⟩ :=
    readsBack_of_validate hval (hwithin _ _ _ hevents)
  exact verifyVoteExtensionHandler_of_valid (hproto _ hback _ hmarshal) hval

/-! ## Against the sidecar -/

section Sidecar
variable {unavailable : String} {rt : Runtime} {accAddressString : Bytes → String}

theorem extendVoteHandler_sidecar {server : Sidecar.Server}
    (hclient : veh.sidecarClient = Sidecar.getAssetsLockedEvents veh.codec unavailable server)
    (hcache : Sidecar.CacheInv veh.codec server)
    (hmarshal : ∀ sequenceStart sequenceEnd events,
      veh.sidecarClient sequenceStart sequenceEnd = .ok events →
      validateAssetsLockedEvents veh.codec events = .ok () →
      ∃ bytes, veh.voteExtensionProto.marshal ⟨events⟩ = .ok bytes)
    {req : RequestExtendVote} {injectedTip : MathInt}
    (htip : veh.injectedSequenceTip req.txs = .ok injectedTip)
    (hnonneg : 0 ≤ veh.sequenceTip s injectedTip) :
    ∃ bytes, veh.extendVoteHandler s req = .ok bytes := by
  have hrange : ∃ events, veh.sidecarClient (some (veh.sequenceTip s injectedTip + 1))
      (some (veh.sequenceTip s injectedTip + 1 + assetsLockedEventsLimit)) = .ok events ∧
      validateAssetsLockedEvents veh.codec events = .ok () := by
    rw [hclient]
    exact Sidecar.getAssetsLockedEvents_extendVote hcache hnonneg
  obtain ⟨events, hevents, hval⟩ := hrange
  obtain ⟨bytes, hbytes⟩ := hmarshal _ _ events hevents hval
  exact ⟨bytes, extendVoteHandler_of_events htip hevents hval hbytes⟩

/-- A client of a sidecar, after any run of its calls from a valid cache of integers within
`MaxBitLen`, answers with cached events, whose integers the run kept within `MaxBitLen`. -/
theorem answersWithinMaxBitLen_of_runKeep {server : Sidecar.Server}
    (calls : List Sidecar.SidecarCall) (hcache : Sidecar.CacheInv veh.codec server)
    (hwithin : Sidecar.CacheWithinMaxBitLen server)
    (hclient : veh.sidecarClient = Sidecar.getAssetsLockedEvents veh.codec unavailable
      (EStateM.runKeep (Sidecar.SidecarCall.run rt veh.codec accAddressString) calls server)) :
    veh.AnswersWithinMaxBitLen := by
  intro sequenceStart sequenceEnd events hevents e he
  rw [hclient] at hevents
  exact Sidecar.cacheWithinMaxBitLen_runKeep calls hwithin e
    ((Sidecar.sublist_of_getAssetsLockedEvents (Sidecar.cacheInv_runKeep calls hcache)
      hevents).subset he)

/-- Along every run of the sidecar's calls from a valid cache, whichever of them fail, an honest
validator's `ExtendVote` returns for a non-negative tip, and every validator accepts what it
returned. -/
theorem extendVote_sidecar_accepted {server : Sidecar.Server} (calls : List Sidecar.SidecarCall)
    (hcache : Sidecar.CacheInv veh.codec server) (hwithin : Sidecar.CacheWithinMaxBitLen server)
    (hclient : veh.sidecarClient = Sidecar.getAssetsLockedEvents veh.codec unavailable
      (EStateM.runKeep (Sidecar.SidecarCall.run rt veh.codec accAddressString) calls server))
    (hproto : veh.voteExtensionProto.RoundTripsOn fun voteExtension => voteExtension.readsBack)
    (hmarshal : ∀ sequenceStart sequenceEnd events,
      veh.sidecarClient sequenceStart sequenceEnd = .ok events →
      validateAssetsLockedEvents veh.codec events = .ok () →
      ∃ bytes, veh.voteExtensionProto.marshal ⟨events⟩ = .ok bytes)
    {req : RequestExtendVote} {injectedTip : MathInt}
    (htip : veh.injectedSequenceTip req.txs = .ok injectedTip)
    (hnonneg : 0 ≤ veh.sequenceTip s injectedTip) :
    ∃ bytes, veh.extendVoteHandler s req = .ok bytes ∧
      ∀ (s' : σ) (req' : RequestVerifyVoteExtension), req'.voteExtension = bytes →
        veh.verifyVoteExtensionHandler s' req' = .ok .accept := by
  have hrun : Sidecar.CacheInv veh.codec
      (EStateM.runKeep (Sidecar.SidecarCall.run rt veh.codec accAddressString) calls server) :=
    Sidecar.cacheInv_runKeep calls hcache
  obtain ⟨bytes, h⟩ := extendVoteHandler_sidecar hclient hrun hmarshal htip hnonneg
  exact ⟨bytes, h, extendVote_verifyVoteExtension hproto
    (answersWithinMaxBitLen_of_runKeep calls hcache hwithin hclient) h⟩

/-- The deposit log of the runs below: sequence one, `100` of token `0x11…11` to recipient
`[1]`. -/
def oneLog : Sidecar.AbiAssetsLockedEvent :=
  ⟨1, [1], List.replicate 20 0x11, 100, by decide, by decide⟩

/-- A bridge handler on a store whose tip is zero, against a sidecar whose first tick read
`oneLog` from finalized block 5, with go-ethereum's codec and a codec of the extension that
writes the empty extension and that of the log's event. -/
def oneLogHandler : VoteExtensionHandler Unit :=
  let codec := AddressCodec.goEthereum fun _ => some [1]
  let accAddressString : Bytes → String := fun _ => "mezo1recipient"
  let e := Sidecar.toAssetsLockedEvent codec accAddressString oneLog
  ⟨Sidecar.getAssetsLockedEvents codec "unavailable"
      (EStateM.runKeep (Sidecar.SidecarCall.run Runtime.insertionOrder codec accAddressString)
        [.process ⟨.ok 5, fun _ _ => .ok [oneLog]⟩] ⟨0, []⟩),
    ⟨fun _ => 0, fun _ => false, fun _ => pure (), pure ()⟩, codec,
    ⟨fun _ => .error "unsupported", fun _ => .error "unsupported"⟩,
    ⟨fun ve => if ve = ⟨[e]⟩ then .ok [3] else if ve = ⟨[]⟩ then .ok [] else .error "unsupported",
      fun bytes => if bytes = [3] then .ok ⟨[e]⟩ else .ok ⟨[]⟩⟩⟩

theorem oneLogHandler_roundTripsOn :
    oneLogHandler.voteExtensionProto.RoundTripsOn fun voteExtension => voteExtension.readsBack := by
  intro ve _ bytes h
  by_cases h₁ : ve = ⟨[Sidecar.toAssetsLockedEvent (AddressCodec.goEthereum fun _ => some [1])
    (fun _ => "mezo1recipient") oneLog]⟩
  · subst h₁
    obtain rfl : bytes = [3] := (Except.ok.inj h).symm
    rfl
  by_cases h₂ : ve = ⟨[]⟩
  · subst h₂
    obtain rfl : bytes = [] := (Except.ok.inj h).symm
    rfl
  simp [oneLogHandler, h₁, h₂] at h

theorem oneLogHandler_answersWithinMaxBitLen : oneLogHandler.AnswersWithinMaxBitLen := by
  have hcache : Sidecar.CacheInv oneLogHandler.codec ⟨0, []⟩ := rfl
  exact answersWithinMaxBitLen_of_runKeep [.process ⟨.ok 5, fun _ _ => .ok [oneLog]⟩] hcache
    (fun _ he => by cases he) rfl

/-- The sidecar's first tick caches the log's event, so every answer of the client is empty or
that event; both extensions are written. -/
theorem oneLogHandler_marshal : ∀ sequenceStart sequenceEnd events,
    oneLogHandler.sidecarClient sequenceStart sequenceEnd = .ok events →
    validateAssetsLockedEvents oneLogHandler.codec events = .ok () →
    ∃ bytes, oneLogHandler.voteExtensionProto.marshal ⟨events⟩ = .ok bytes := by
  intro sequenceStart sequenceEnd events h _
  have hcache : (EStateM.runKeep (Sidecar.SidecarCall.run Runtime.insertionOrder
      (AddressCodec.goEthereum fun _ => some [1]) fun _ => "mezo1recipient")
      [.process ⟨.ok 5, fun _ _ => .ok [oneLog]⟩] ⟨0, []⟩).assetsLockedEvents =
      [Sidecar.toAssetsLockedEvent (AddressCodec.goEthereum fun _ => some [1])
        (fun _ => "mezo1recipient") oneLog] := by
    decide +kernel
  have hc : Sidecar.CacheInv (AddressCodec.goEthereum fun _ => some [1]) ⟨0, []⟩ := rfl
  have hsub := Sidecar.sublist_of_getAssetsLockedEvents (Sidecar.cacheInv_runKeep _ hc) h
  rw [hcache] at hsub
  rcases List.sublist_singleton.1 hsub with rfl | rfl
  · exact ⟨[], by decide +kernel⟩
  · exact ⟨[3], by decide +kernel⟩

/-- An honest validator's `ExtendVote`, from the store's tip zero, puts the event of the log
the sidecar read in its extension, and every validator accepts it. -/
theorem extendVote_sidecar_accepted_oneLog :
    (Sidecar.CacheInv oneLogHandler.codec ⟨0, []⟩ ∧ Sidecar.CacheWithinMaxBitLen ⟨0, []⟩ ∧
      oneLogHandler.injectedSequenceTip [] = .ok none ∧
      0 ≤ oneLogHandler.sequenceTip () none) ∧
    oneLogHandler.extendVoteHandler () ⟨[], 1, []⟩ = .ok [3] ∧
    ∃ bytes, oneLogHandler.extendVoteHandler () ⟨[], 1, []⟩ = .ok bytes ∧
      ∀ (s' : Unit) (req' : RequestVerifyVoteExtension), req'.voteExtension = bytes →
        oneLogHandler.verifyVoteExtensionHandler s' req' = .ok .accept := by
  have hcache : Sidecar.CacheInv oneLogHandler.codec ⟨0, []⟩ := rfl
  have hwithin : Sidecar.CacheWithinMaxBitLen ⟨0, []⟩ := fun _ he => by cases he
  have hext : oneLogHandler.extendVoteHandler () ⟨[], 1, []⟩ = .ok [3] := by decide +kernel
  refine ⟨⟨hcache, hwithin, rfl, le_refl 0⟩, hext, ?_⟩
  exact extendVote_sidecar_accepted [.process ⟨.ok 5, fun _ _ => .ok [oneLog]⟩] hcache hwithin rfl
    oneLogHandler_roundTripsOn oneLogHandler_marshal rfl (le_refl 0)

end Sidecar

end VoteExtensionHandler

end Mezod
