import Mezod.Bridge.Types.AssetsLocked

/-! # The CometBFT ABCI++ data the handlers read

The parts of `cmtabci` and `cmtproto` messages that the proposal and vote-extension handlers of
this repository look at. Fields that no modelled handler reads (the round of a commit, the
signatures of vote extensions, which CometBFT checks before the application sees them) are left
out. `maxTotalVotingPower` is CometBFT's bound on the total power of a validator set, which
keeps every sum of powers, and twice it, inside `int64`. -/

namespace Mezod

/-- `cmtproto.BlockIDFlag`: how a validator of the last set voted on the last block. -/
inductive BlockIDFlag where
  | unknown
  | absent
  | commit
  | nil
  deriving DecidableEq, Repr

/-- `cmtabci.ExtendedVoteInfo`: one validator of the last validator set, its power, and its
pre-commit with the vote extension. -/
structure ExtendedVoteInfo where
  validatorAddress : Bytes
  validatorPower : Int64
  voteExtension : Bytes
  blockIdFlag : BlockIDFlag
  deriving DecidableEq, Repr

/-- `cmtabci.ExtendedCommitInfo`: the votes of the last validator set on the last block. -/
structure ExtendedCommitInfo where
  votes : List ExtendedVoteInfo
  deriving DecidableEq, Repr

/-- `cmtabci.RequestPrepareProposal`: the fields the handlers read. -/
structure RequestPrepareProposal where
  maxTxBytes : Int64
  txs : List Bytes
  localLastCommit : ExtendedCommitInfo
  height : Int64
  deriving DecidableEq, Repr

/-- `cmtabci.RequestProcessProposal`: the fields the handlers read. The others are only passed
on to the sub-handlers. -/
structure RequestProcessProposal where
  txs : List Bytes
  height : Int64
  deriving DecidableEq, Repr

/-- `cmtabci.ResponseProcessProposal_ProposalStatus`. -/
inductive ProposalStatus where
  | unknown
  | accept
  | reject
  deriving DecidableEq, Repr

/-- `cmtabci.RequestExtendVote`: the fields the handlers read. The others are only passed on to
the sub-handlers. -/
structure RequestExtendVote where
  hash : Bytes
  height : Int64
  txs : List Bytes
  deriving DecidableEq, Repr

/-- `cmtabci.RequestVerifyVoteExtension`. -/
structure RequestVerifyVoteExtension where
  hash : Bytes
  validatorAddress : Bytes
  height : Int64
  voteExtension : Bytes
  deriving DecidableEq, Repr

/-- `cmtabci.ResponseVerifyVoteExtension_VerifyStatus`. -/
inductive VerifyStatus where
  | unknown
  | accept
  | reject
  deriving DecidableEq, Repr

/-- `cmtabci.RequestFinalizeBlock`: the fields the pre-blockers read. The others are only passed
on to the sub-handlers. -/
structure RequestFinalizeBlock where
  txs : List Bytes
  height : Int64
  deriving DecidableEq, Repr

/-- CometBFT's `MaxTotalVotingPower`, `math.MaxInt64 / 8`. -/
def maxTotalVotingPower : Int :=
  9223372036854775807 / 8

end Mezod
