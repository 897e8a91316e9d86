import Mezod.Comet.Types
import Mezod.Lib.Go

/-! # The loops of the app's composite ABCI handlers (`app/abci`)

The app's proposal and vote-extension handlers each run a map of sub-handlers, keyed by
`VoteExtensionPart`, and combine what they return. Two loops do the work, the same in both
files up to the texts of their errors. `collectPart` is the producing side's: every sub-handler
runs, those that return put a part under their key, and those that return an error are skipped.
`checkPart` is the checking side's: every part of what came in must belong to a known key, and
that key's sub-handler must accept it.

Go ranges over both maps in an order the runtime picks. `partsFrom_collectParts` says what the
collected parts are whatever that order was, and `forM_checkPart_eq_ok_iff` that the parts pass
the checks exactly when each part does. -/

namespace Mezod
namespace App
open Go

/-- `VoteExtensionPart`, the `uint32` key of a part. -/
abbrev VoteExtensionPart := Nat

def voteExtensionPartBridge : VoteExtensionPart := 1

def voteExtensionPartConnect : VoteExtensionPart := 2

/-- `VoteExtensionPart.String`, what `%v` prints. -/
def VoteExtensionPart.string (vep : VoteExtensionPart) : String :=
  if vep = voteExtensionPartBridge then "bridge"
  else if vep = voteExtensionPartConnect then "connect"
  else "unknown: " ++ toString vep

section Loops
variable {α : Type*} {β : Type}

/-- One turn of the producing loop: a part that came back goes in under its key, a sub-handler
that returned an error is logged and skipped, a panic goes up. -/
def collectPart (run : VoteExtensionPart → α → Except GoError Bytes)
    (parts : List (VoteExtensionPart × Bytes)) :
    VoteExtensionPart × α → Except GoError (List (VoteExtensionPart × Bytes))
  | (part, subHandler) =>
    match run part subHandler with
    | .error (.panic msg) => .error (.panic msg)
    | .error (.error _) => .ok parts
    | .ok partBytes => .ok (OrderedMap.insert part partBytes parts)

/-- One turn of the checking loop: the part's key names a sub-handler, and it accepts the part.
`verb` and `what` are the words of the errors. -/
def checkPart [DecidableEq β] (subHandlers : List (VoteExtensionPart × α)) (verb what : String)
    (accept : β) (run : α → Bytes → Except GoError β) : VoteExtensionPart × Bytes → Except GoError PUnit
  | (part, partBytes) =>
    match subHandlers.lookup part with
    | none => .error (.error ("unknown " ++ what ++ " part: " ++ toString part))
    | some subHandler =>
      match run subHandler partBytes with
      | .error (.error err) =>
        .error (.error ("sub-handler failed to " ++ verb ++ " " ++ what ++ " part " ++
          VoteExtensionPart.string part ++ ": " ++ err))
      | .error (.panic msg) => .error (.panic msg)
      | .ok status =>
        if status = accept then .ok ()
        else .error (.error ("sub-handler rejected " ++ what ++ " part " ++
          VoteExtensionPart.string part))

/-! ## What the producing loop collects -/

/-- The parts collected so far form an ordered map, each part what its key's sub-handler
returned. -/
def PartsFrom (subHandlers : List (VoteExtensionPart × α))
    (run : VoteExtensionPart → α → Except GoError Bytes)
    (parts : List (VoteExtensionPart × Bytes)) : Prop :=
  OrderedMap.Sorted parts ∧
    ∀ p ∈ parts, ∃ subHandler, (p.1, subHandler) ∈ subHandlers ∧ run p.1 subHandler = .ok p.2

variable {subHandlers : List (VoteExtensionPart × α)}
  {run : VoteExtensionPart → α → Except GoError Bytes}

theorem partsFrom_nil : PartsFrom subHandlers run [] :=
  ⟨List.Pairwise.nil, fun _ h => by cases h⟩

theorem PartsFrom.collectPart {parts parts' : List (VoteExtensionPart × Bytes)}
    {part : VoteExtensionPart} {subHandler : α} (hI : PartsFrom subHandlers run parts)
    (hmem : (part, subHandler) ∈ subHandlers)
    (h : App.collectPart run parts (part, subHandler) = .ok parts') :
    PartsFrom subHandlers run parts' := by
  unfold App.collectPart at h
  dsimp only at h
  split at h
  · cases h
  · cases h
    exact hI
  · rename_i partBytes hrun
    cases h
    refine ⟨OrderedMap.sorted_insert hI.1, fun p hp => ?_⟩
    rcases (OrderedMap.mem_insert hI.1).1 hp with rfl | ⟨hp, -⟩
    · exact ⟨subHandler, hmem, hrun⟩
    · exact hI.2 p hp

/-- Whatever order the loop ran the sub-handlers in, the parts it returned satisfy `PartsFrom`. -/
theorem partsFrom_collectParts {l : List (VoteExtensionPart × α)} (hl : ∀ q ∈ l, q ∈ subHandlers)
    {parts : List (VoteExtensionPart × Bytes)}
    (h : l.foldlM (App.collectPart run) [] = .ok parts) : PartsFrom subHandlers run parts :=
  foldlM_inv (PartsFrom subHandlers run) (fun _ _ _ hq hI hstep => hI.collectPart (hl _ hq) hstep)
    partsFrom_nil h

/-! ## What the checking loop accepts -/

variable [DecidableEq β] {verb what : String} {accept : β} {check : α → Bytes → Except GoError β}

theorem checkPart_eq_ok (hs : OrderedMap.Sorted subHandlers) {part : VoteExtensionPart}
    {partBytes : Bytes} :
    checkPart subHandlers verb what accept check (part, partBytes) = .ok () ↔
      ∃ subHandler, (part, subHandler) ∈ subHandlers ∧ check subHandler partBytes = .ok accept := by
  unfold checkPart
  dsimp only
  split
  · rename_i hl
    -- no sub-handler has the key
    have hnone := OrderedMap.lookup_eq_none_iff.1 hl
    simp only [reduceCtorEq, false_iff, not_exists, not_and]
    exact fun subHandler hmem _ => hnone _ hmem rfl
  · rename_i subHandler hl
    have hmem := (OrderedMap.lookup_eq_some_iff hs).1 hl
    -- the key names one sub-handler
    have hunique : ∀ other, (part, other) ∈ subHandlers → other = subHandler := fun other ho =>
      Option.some.inj (((OrderedMap.lookup_eq_some_iff hs).2 ho).symm.trans hl)
    constructor
    · intro h
      refine ⟨subHandler, hmem, ?_⟩
      split at h
      · cases h
      · cases h
      · rename_i status hrun
        by_cases hacc : status = accept
        · rw [hrun, hacc]
        · rw [if_neg hacc] at h
          cases h
    · rintro ⟨other, ho, hacc⟩
      rw [hunique other ho] at hacc
      rw [hacc]
      exact if_pos rfl

/-- The checking loop passes, in whatever order it ran, exactly when every part is accepted by a
sub-handler of its key. -/
theorem forM_checkPart_eq_ok_iff (rt : Runtime) (hs : OrderedMap.Sorted subHandlers)
    (parts : List (VoteExtensionPart × Bytes)) :
    (rt.rangeOrder parts).forM (checkPart subHandlers verb what accept check) = .ok () ↔
      ∀ p ∈ parts, ∃ subHandler, (p.1, subHandler) ∈ subHandlers ∧
        check subHandler p.2 = .ok accept := by
  rw [forM_eq_ok_iff]
  constructor
  · intro h p hp
    exact (checkPart_eq_ok hs).1 (h p ((rt.rangeOrder_perm parts).mem_iff.2 hp))
  · intro h p hp
    exact (checkPart_eq_ok hs).2 (h p ((rt.rangeOrder_perm parts).mem_iff.1 hp))

end Loops

end App
end Mezod
