import Mezod.App.Parts
import Mezod.Bridge.Abci.VoteExtensionHandler

/-! # The app-level vote-extension handlers (`app/abci/vote_extension.go`)

The app's `ExtendVote` runs every sub-handler, the bridge's and the Connect oracle's, on its part
of the proposal's injected pseudo-transaction, and keeps under each part's key the bytes of the
sub-handlers that returned; it fails only when all of them did. `VerifyVoteExtension` accepts an
empty extension, and a bounded one at the request's height whose every part a known sub-handler
accepts.

Go ranges over both maps in an order of the runtime's choosing. What `VerifyVoteExtension`
accepts does not depend on it (`verifyVoteExtensionHandler_eq_accept_iff`), and when every
sub-handler accepts what it extends, so does the app, whatever order either side ran in
(`verifyVoteExtensionHandler_of_extendVoteHandler`). The bridge sub-handler is one such
(`toSubHandler_agrees`). The Connect handler is a third party's and enters as a parameter. -/

namespace Mezod
namespace App
open Go

/-- `maxVoteExtensionSize`. -/
def maxVoteExtensionSize : Nat := 32 * 1024

/-- The app-level `VoteExtension`: the height it is for, and its parts by key, a Go map listed
in key order. -/
structure VoteExtension where
  height : Int64
  parts : List (VoteExtensionPart × Bytes)
  deriving DecidableEq, Repr

/-- The app-level `InjectedTx`: the parts of the pseudo-transaction by key. -/
structure InjectedTx where
  parts : List (VoteExtensionPart × Bytes)
  deriving DecidableEq, Repr

/-- `IVoteExtensionHandler`, at the state of a request's context. -/
structure SubHandler (σ : Type) where
  extendVoteHandler : σ → RequestExtendVote → Except GoError Bytes
  verifyVoteExtensionHandler : σ → RequestVerifyVoteExtension → Except GoError VerifyStatus

/-- A sub-handler agrees with itself: what its `ExtendVote` returns, its `VerifyVoteExtension`
accepts, in any state and for any request that carries it. -/
def SubHandler.Agrees {σ : Type} (subHandler : SubHandler σ) : Prop :=
  ∀ s req bytes, subHandler.extendVoteHandler s req = .ok bytes →
    ∀ s' (req' : RequestVerifyVoteExtension), req'.voteExtension = bytes →
      subHandler.verifyVoteExtensionHandler s' req' = .ok .accept

/-- The app-level `VoteExtensionHandler`. Its map of sub-handlers is listed in key order. -/
structure VoteExtensionHandler (σ : Type) where
  subHandlers : List (VoteExtensionPart × SubHandler σ)
  subHandlers_sorted : OrderedMap.Sorted subHandlers
  injectedTxProto : Proto InjectedTx
  voteExtensionProto : Proto VoteExtension

end App

/-- The bridge `VoteExtensionHandler` as a sub-handler. -/
def VoteExtensionHandler.toSubHandler {σ : Type} (veh : VoteExtensionHandler σ) :
    App.SubHandler σ :=
  ⟨veh.extendVoteHandler, veh.verifyVoteExtensionHandler⟩

namespace App
open Go

/-- `NewVoteExtensionHandler`. -/
def newVoteExtensionHandler {σ : Type} (bridgeSubHandler : Mezod.VoteExtensionHandler σ)
    (connectVEHandler : SubHandler σ) (injectedTxProto : Proto InjectedTx)
    (voteExtensionProto : Proto VoteExtension) : VoteExtensionHandler σ where
  subHandlers := [(voteExtensionPartBridge, bridgeSubHandler.toSubHandler),
    (voteExtensionPartConnect, connectVEHandler)]
  subHandlers_sorted := by
    simp [OrderedMap.Sorted, voteExtensionPartBridge, voteExtensionPartConnect]
  injectedTxProto := injectedTxProto
  voteExtensionProto := voteExtensionProto

namespace VoteExtensionHandler
variable {σ : Type} (veh : VoteExtensionHandler σ)

/-- The first transaction read as the app's `InjectedTx`, and the regular transactions. A first
transaction that does not decode is a regular one. -/
def splitTxs : List Bytes → Option InjectedTx × List Bytes
  | [] => (none, [])
  | tx :: rest =>
    match veh.injectedTxProto.unmarshal tx with
    | .error _ => (none, tx :: rest)
    | .ok injectedTx => (some injectedTx, rest)

/-- The sub-handler's request: its part of the injected tx, possibly empty, before the regular
transactions. -/
def subRequest (req : RequestExtendVote) (injectedTx : Option InjectedTx)
    (regularTxs : List Bytes) (part : VoteExtensionPart) : RequestExtendVote :=
  { req with txs := ((injectedTx.bind fun tx => tx.parts.lookup part).getD []) :: regularTxs }

/-- What a sub-handler's `ExtendVote` returns for its part. -/
def extendSubHandler (s : σ) (req : RequestExtendVote) (injectedTx : Option InjectedTx)
    (regularTxs : List Bytes) (part : VoteExtensionPart) (subHandler : SubHandler σ) :
    Except GoError Bytes :=
  subHandler.extendVoteHandler s (subRequest req injectedTx regularTxs part)

/-- `ExtendVoteHandler`, with `rt` ranging over the sub-handlers. -/
def extendVoteHandler (rt : Runtime) (s : σ) (req : RequestExtendVote) : Except GoError Bytes :=
  match (rt.rangeOrder veh.subHandlers).foldlM
      (collectPart (extendSubHandler s req (veh.splitTxs req.txs).1 (veh.splitTxs req.txs).2))
      [] with
  | .error e => .error e
  | .ok voteExtensionParts =>
    if voteExtensionParts.isEmpty then .error (.error "all sub-handlers failed to extend vote")
    else match veh.voteExtensionProto.marshal ⟨req.height, voteExtensionParts⟩ with
      | .error err => .error (.error ("failed to marshal vote extension: " ++ err))
      | .ok voteExtensionBytes => .ok voteExtensionBytes

/-- One turn of the loop over the parts: the part's sub-handler has to accept it. -/
def verifyPart (s : σ) (req : RequestVerifyVoteExtension) :
    VoteExtensionPart × Bytes → Except GoError PUnit :=
  checkPart veh.subHandlers "verify" "vote extension" VerifyStatus.accept
    fun subHandler partBytes =>
      subHandler.verifyVoteExtensionHandler s { req with voteExtension := partBytes }

/-- `VerifyVoteExtensionHandler`, with `rt` ranging over the parts. -/
def verifyVoteExtensionHandler (rt : Runtime) (s : σ) (req : RequestVerifyVoteExtension) :
    Except GoError VerifyStatus :=
  if req.voteExtension.isEmpty then .ok .accept
  else if req.voteExtension.length > maxVoteExtensionSize then
    .error (.error ("vote extension size " ++ toString req.voteExtension.length ++
      " exceeds limit " ++ toString maxVoteExtensionSize))
  else match veh.voteExtensionProto.unmarshal req.voteExtension with
    | .error err => .error (.error ("failed to unmarshal vote extension: " ++ err))
    | .ok voteExtension =>
      if voteExtension.height ≠ req.height then
        .error (.error ("vote extension height does not match request height; expected: " ++
          toString req.height ++ ", got: " ++ toString voteExtension.height))
      else if voteExtension.parts.isEmpty then .error (.error "vote extension has no parts")
      else match (rt.rangeOrder voteExtension.parts).forM (veh.verifyPart s req) with
        | .error e => .error e
        | .ok () => .ok .accept

/-! ## What `VerifyVoteExtension` accepts -/

variable {veh} {s : σ}

/-- What `VerifyVoteExtension` accepts, under any order of its loop: an empty extension, or a
bounded one that decodes at the request's height to parts, at least one, each of which a
sub-handler of its key accepts. -/
theorem verifyVoteExtensionHandler_eq_accept_iff (rt : Runtime) {req : RequestVerifyVoteExtension} :
    veh.verifyVoteExtensionHandler rt s req = .ok .accept ↔ req.voteExtension = [] ∨
      req.voteExtension.length ≤ maxVoteExtensionSize ∧ ∃ voteExtension,
        veh.voteExtensionProto.unmarshal req.voteExtension = .ok voteExtension ∧
        voteExtension.height = req.height ∧ voteExtension.parts ≠ [] ∧
        ∀ p ∈ voteExtension.parts, ∃ subHandler, (p.1, subHandler) ∈ veh.subHandlers ∧
          subHandler.verifyVoteExtensionHandler s { req with voteExtension := p.2 } =
            .ok .accept := by
  -- the loop over the parts passes when each part passes, in whatever order
  have hparts : ∀ parts : List (VoteExtensionPart × Bytes),
      (rt.rangeOrder parts).forM (veh.verifyPart s req) = .ok () ↔
        ∀ p ∈ parts, ∃ subHandler, (p.1, subHandler) ∈ veh.subHandlers ∧
          subHandler.verifyVoteExtensionHandler s { req with voteExtension := p.2 } =
            .ok .accept :=
    fun parts => forM_checkPart_eq_ok_iff rt veh.subHandlers_sorted parts
  unfold verifyVoteExtensionHandler
  by_cases hempty : req.voteExtension = []
  · simp [hempty]
  have hne : req.voteExtension.isEmpty = false := by simpa using hempty
  rw [if_neg (by simp [hne])]
  by_cases hsize : req.voteExtension.length > maxVoteExtensionSize
  · rw [if_pos hsize]
    simp only [reduceCtorEq, false_iff, not_or, not_and]
    exact ⟨hempty, fun h => absurd h (by omega)⟩
  rw [if_neg hsize]
  cases hve : veh.voteExtensionProto.unmarshal req.voteExtension with
  | error err => simp [hempty]
  | ok voteExtension =>
    dsimp only
    by_cases hheight : voteExtension.height = req.height
    · rw [if_neg (not_not.2 hheight)]
      by_cases hnil : voteExtension.parts = []
      · simp [hnil, hempty]
      rw [if_neg (by simpa using hnil)]
      cases hloop : (rt.rangeOrder voteExtension.parts).forM (veh.verifyPart s req) with
      | error e =>
        have hfail : ¬∀ p ∈ voteExtension.parts, ∃ subHandler, (p.1, subHandler) ∈ veh.subHandlers ∧
            subHandler.verifyVoteExtensionHandler s { req with voteExtension := p.2 } =
              .ok .accept := fun h => by
          have := (hparts _).2 h
          rw [hloop] at this
          cases this
        simp only [reduceCtorEq, false_iff, not_or, not_and, not_exists, Except.ok.injEq]
        exact ⟨hempty, fun _ ve hve' _ _ h => by cases hve'; exact hfail h⟩
      | ok u =>
        have hall := (hparts _).1 hloop
        simp only [true_iff]
        exact .inr ⟨by omega, voteExtension, rfl, hheight, hnil, hall⟩
    · rw [if_pos hheight]
      simp only [reduceCtorEq, false_iff, not_or, not_and, not_exists, Except.ok.injEq]
      exact ⟨hempty, fun _ ve hve' h => by cases hve'; exact absurd h hheight⟩

theorem verifyVoteExtensionHandler_runtime (rt rt' : Runtime) (req : RequestVerifyVoteExtension) :
    veh.verifyVoteExtensionHandler rt s req = .ok .accept ↔
      veh.verifyVoteExtensionHandler rt' s req = .ok .accept := by
  rw [verifyVoteExtensionHandler_eq_accept_iff, verifyVoteExtensionHandler_eq_accept_iff]

/-! ## What `ExtendVote` puts in -/

theorem extendVoteHandler_eq_ok {rt : Runtime} {req : RequestExtendVote} {bytes : Bytes}
    (h : veh.extendVoteHandler rt s req = .ok bytes) :
    ∃ parts, PartsFrom veh.subHandlers
        (extendSubHandler s req (veh.splitTxs req.txs).1 (veh.splitTxs req.txs).2) parts ∧
      parts ≠ [] ∧ veh.voteExtensionProto.marshal ⟨req.height, parts⟩ = .ok bytes := by
  unfold extendVoteHandler at h
  split at h
  · cases h
  rename_i parts hloop
  have hI := partsFrom_collectParts (fun _ hq => (rt.rangeOrder_perm veh.subHandlers).mem_iff.1 hq) hloop
  split at h
  · cases h
  rename_i hne
  split at h
  · cases h
  rename_i hmarshal
  cases h
  exact ⟨parts, hI, by simpa using hne, hmarshal⟩

/-! ## The validator that extends and the validators that verify agree -/

/-- When every sub-handler agrees with itself, so does the app, whatever order either side
ranges in: a bounded extension an honest validator returned, every validator accepts at the
same height. -/
theorem verifyVoteExtensionHandler_of_extendVoteHandler (rt rt' : Runtime)
    (hagree : ∀ p ∈ veh.subHandlers, p.2.Agrees) (hproto : veh.voteExtensionProto.RoundTrips)
    {req : RequestExtendVote} {bytes : Bytes} (h : veh.extendVoteHandler rt s req = .ok bytes)
    (hsize : bytes.length ≤ maxVoteExtensionSize) (s' : σ) (req' : RequestVerifyVoteExtension)
    (hbytes : req'.voteExtension = bytes) (hheight : req'.height = req.height) :
    veh.verifyVoteExtensionHandler rt' s' req' = .ok .accept := by
  obtain ⟨parts, hI, hne, hmarshal⟩ := extendVoteHandler_eq_ok h
  subst hbytes
  refine (verifyVoteExtensionHandler_eq_accept_iff rt').2 (.inr ⟨hsize, ⟨req.height, parts⟩,
    hproto _ _ hmarshal, hheight.symm, hne, fun p hp => ?_⟩)
  -- each part came from its key's sub-handler, which accepts it back
  obtain ⟨subHandler, hmem, hext⟩ := hI.2 p hp
  exact ⟨subHandler, hmem, hagree _ hmem s _ p.2 hext s' _ rfl⟩

end VoteExtensionHandler

theorem toSubHandler_agrees {σ : Type} {veh : Mezod.VoteExtensionHandler σ}
    (hproto : veh.voteExtensionProto.RoundTripsOn fun voteExtension => voteExtension.readsBack)
    (hwithin : veh.AnswersWithinMaxBitLen) : veh.toSubHandler.Agrees :=
  fun _ _ _ h s' req' hbytes =>
    Mezod.VoteExtensionHandler.extendVote_verifyVoteExtension hproto hwithin h s' req' hbytes

/-- The app's handler as `NewVoteExtensionHandler` builds it, from the bridge handler and an
oracle handler that agrees with itself: what an honest validator extends within the size bound,
every validator accepts at the same height, whatever order either side ranges in. -/
theorem newVoteExtensionHandler_accepted {σ : Type} (bridgeSubHandler : Mezod.VoteExtensionHandler σ)
    (connectVEHandler : SubHandler σ) (injectedTxProto : Proto InjectedTx)
    (voteExtensionProto : Proto VoteExtension)
    (hbridge : bridgeSubHandler.voteExtensionProto.RoundTripsOn
      fun voteExtension => voteExtension.readsBack)
    (hwithin : bridgeSubHandler.AnswersWithinMaxBitLen) (hconnect : connectVEHandler.Agrees)
    (hproto : voteExtensionProto.RoundTrips) (rt rt' : Runtime) {s : σ} {req : RequestExtendVote}
    {bytes : Bytes}
    (h : (newVoteExtensionHandler bridgeSubHandler connectVEHandler injectedTxProto
      voteExtensionProto).extendVoteHandler rt s req = .ok bytes)
    (hsize : bytes.length ≤ maxVoteExtensionSize) (s' : σ) (req' : RequestVerifyVoteExtension)
    (hbytes : req'.voteExtension = bytes) (hheight : req'.height = req.height) :
    (newVoteExtensionHandler bridgeSubHandler connectVEHandler injectedTxProto
      voteExtensionProto).verifyVoteExtensionHandler rt' s' req' = .ok .accept := by
  have hagree : ∀ p ∈ (newVoteExtensionHandler bridgeSubHandler connectVEHandler injectedTxProto
      voteExtensionProto).subHandlers, p.2.Agrees := by
    intro p hp
    simp only [newVoteExtensionHandler, List.mem_cons, List.not_mem_nil, or_false] at hp
    rcases hp with rfl | rfl
    · exact toSubHandler_agrees hbridge hwithin
    · exact hconnect
  exact VoteExtensionHandler.verifyVoteExtensionHandler_of_extendVoteHandler rt rt' hagree hproto
    h hsize s' req' hbytes hheight

/-- The bridge handler on the sidecar that read one log, and an oracle that is down: the bridge
part, which carries the log's event, is the only part, and every validator accepts the
extension. -/
theorem newVoteExtensionHandler_accepted_bridgeOnly :
    let connect : SubHandler Unit := ⟨fun _ _ => .error (.error "oracle down"), fun _ _ => .ok .accept⟩
    let voteExtensionProto : Proto VoteExtension :=
      ⟨fun ve => if ve = ⟨1, [(voteExtensionPartBridge, [3])]⟩ then .ok [5] else .error "unsupported",
        fun _ => .ok ⟨1, [(voteExtensionPartBridge, [3])]⟩⟩
    let app := newVoteExtensionHandler Mezod.VoteExtensionHandler.oneLogHandler connect
      ⟨fun _ => .error "unsupported", fun _ => .error "unsupported"⟩ voteExtensionProto
    (Mezod.VoteExtensionHandler.oneLogHandler.AnswersWithinMaxBitLen ∧ connect.Agrees ∧
      voteExtensionProto.RoundTrips ∧
      app.extendVoteHandler Runtime.insertionOrder () ⟨[], 1, []⟩ = .ok [5] ∧
      [5].length ≤ maxVoteExtensionSize) ∧
    app.verifyVoteExtensionHandler Runtime.insertionOrder () ⟨[], [], 1, [5]⟩ = .ok .accept := by
  intro connect voteExtensionProto app
  have hconnect : connect.Agrees := fun _ _ _ h => by cases h
  have hproto : voteExtensionProto.RoundTrips := by
    intro ve bytes h
    by_cases hve : ve = ⟨1, [(voteExtensionPartBridge, [3])]⟩
    · subst hve
      rfl
    · simp [voteExtensionProto, hve] at h
  have hext : app.extendVoteHandler Runtime.insertionOrder () ⟨[], 1, []⟩ = .ok [5] := by
    decide +kernel
  have hwithin := Mezod.VoteExtensionHandler.oneLogHandler_answersWithinMaxBitLen
  refine ⟨⟨hwithin, hconnect, hproto, hext, by decide⟩, ?_⟩
  exact newVoteExtensionHandler_accepted _ connect _ voteExtensionProto
    Mezod.VoteExtensionHandler.oneLogHandler_roundTripsOn hwithin hconnect hproto
    Runtime.insertionOrder Runtime.insertionOrder hext (by decide) () _ rfl rfl

end App
end Mezod
