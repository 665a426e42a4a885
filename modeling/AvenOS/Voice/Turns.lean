import AvenOS.Foundations.Lifecycle
import AvenOS.Voice.Coordinator

/-! # What a step does to the turns

At most one turn speaks and one is fading. A step lets a turn go on, starts one, retires the one that
speaks, or ends one. -/
namespace AvenOS.Voice
open AvenOS.Lifecycle

/-! ## Events -/

def Action.play : Action → Option (Stage TurnId)
  | .emit (.playbackTurnStarted turnId) => some (.began turnId)
  | .emit (.playbackSegmentAccepted turnId _) => some (.ongoing turnId)
  | .emit (.playbackSynthesisStarted turnId _) => some (.ongoing turnId)
  | .emit (.playbackSynthesisCompleted turnId _) => some (.ongoing turnId)
  | .emit (.playbackStarted turnId) => some (.ongoing turnId)
  | .emit (.playbackFading turnId _) => some (.ongoing turnId)
  | .emit (.playbackCompleted turnId) => some (.ended turnId)
  | .emit (.playbackCancelled turnId _) => some (.ended turnId)
  | .emit (.playbackFailed turnId _) => some (.ended turnId)
  | .enqueueTts turnId _ _ _ _ _ => some (.ongoing turnId)
  | _ => none

def plays (actions : List Action) : List (Stage TurnId) := actions.filterMap Action.play

@[simp] theorem plays_nil : plays [] = [] := rfl

@[simp] theorem plays_append (actions more : List Action) :
    plays (actions ++ more) = plays actions ++ plays more := List.filterMap_append

@[simp] theorem plays_cons (action : Action) (actions : List Action) :
    plays (action :: actions) = action.play.toList ++ plays actions := by
  cases h : action.play <;> simp [plays, h]

abbrev Mark := TurnId × OutputGeneration

def Action.fade : Action → Option Mark
  | .fadeOutput turnId generation _ => some (turnId, generation)
  | _ => none

def fades (actions : List Action) : List Mark := actions.filterMap Action.fade

@[simp] theorem fades_nil : fades [] = [] := rfl

@[simp] theorem fades_append (actions more : List Action) :
    fades (actions ++ more) = fades actions ++ fades more := List.filterMap_append

@[simp] theorem fades_cons (action : Action) (actions : List Action) :
    fades (action :: actions) = action.fade.toList ++ fades actions := by
  cases h : action.fade <;> simp [fades, h]

/-! ## Identifiers -/

/-- A generator after it has made some more identifiers. -/
structure IdGenerator.Before (ids later : IdGenerator) : Prop where
  bootNonce : later.bootNonce = ids.bootNonce
  next : ids.next ≤ later.next

theorem IdGenerator.Before.refl (ids : IdGenerator) : ids.Before ids := ⟨rfl, Nat.le_refl _⟩

theorem IdGenerator.Before.trans {ids later last : IdGenerator} (h : ids.Before later)
    (hlast : later.Before last) : ids.Before last :=
  ⟨hlast.bootNonce.trans h.bootNonce, h.next.trans hlast.next⟩

theorem IdGenerator.before_advance (ids : IdGenerator) : ids.Before ids.advance := ⟨rfl, Nat.le_succ _⟩

/-! ## What becomes of the turns -/

namespace VoiceState
variable (s : VoiceState)

def speaking : Option Mark := s.turn.map fun turn => (turn.id, turn.generation)

def fading : Option Mark := s.retiringTurn.map fun turn => (turn.id, turn.generation)

/-- The turns stay as they are, and nothing is said about them. -/
structure Still (result : VoiceState × List Action) : Prop where
  speaking : result.1.speaking = s.speaking
  fading : result.1.fading = s.fading
  plays : plays result.2 = []
  fades : fades result.2 = []
  ids : s.ids.Before result.1.ids
  config : result.1.config = s.config

/-- The turns stay as they are, and the one that speaks goes on. -/
structure Spoken (mark : Mark) (result : VoiceState × List Action) : Prop where
  speaking : result.1.speaking = s.speaking
  fading : result.1.fading = s.fading
  plays : ∀ stage ∈ plays result.2, stage = .ongoing mark.1
  fades : fades result.2 = []
  ids : s.ids.Before result.1.ids
  config : result.1.config = s.config

structure Retired (result : VoiceState × List Action) : Prop where
  speaking : result.1.speaking = none
  fading : result.1.fading = s.speaking.or s.fading
  plays : plays result.2 = s.speaking.toList.map fun mark => .ongoing mark.1
  fades : fades result.2 = s.speaking.toList
  ids : s.ids.Before result.1.ids
  config : result.1.config = s.config

end VoiceState

/-! ## Helpers -/

namespace VoiceState
variable {platform : Platform} {s : VoiceState}

theorem still_self : s.Still (s, []) := ⟨rfl, rfl, rfl, rfl, .refl _, rfl⟩

variable {middle result : VoiceState × List Action}

theorem Still.after (h : s.Still middle) (hstill : middle.1.Still result) :
    s.Still (result.1, middle.2 ++ result.2) where
  speaking := hstill.speaking.trans h.speaking
  fading := hstill.fading.trans h.fading
  plays := by rw [plays_append, h.plays, hstill.plays]; rfl
  fades := by rw [fades_append, h.fades, hstill.fades]; rfl
  ids := h.ids.trans hstill.ids
  config := hstill.config.trans h.config

theorem Retired.after (h : s.Retired middle) (hstill : middle.1.Still result) :
    s.Retired (result.1, middle.2 ++ result.2) where
  speaking := hstill.speaking.trans h.speaking
  fading := hstill.fading.trans h.fading
  plays := by rw [plays_append, h.plays, hstill.plays, List.append_nil]
  fades := by rw [fades_append, h.fades, hstill.fades, List.append_nil]
  ids := h.ids.trans hstill.ids
  config := hstill.config.trans h.config

theorem Still.retired (h : s.Still middle) (hretired : middle.1.Retired result) :
    s.Retired (result.1, middle.2 ++ result.2) where
  speaking := hretired.speaking
  fading := by rw [hretired.fading, h.speaking, h.fading]
  plays := by rw [plays_append, h.plays, hretired.plays, h.speaking]; rfl
  fades := by rw [fades_append, h.fades, hretired.fades, h.speaking]; rfl
  ids := h.ids.trans hretired.ids
  config := hretired.config.trans h.config

theorem cancelActiveTurn_retired (s : VoiceState) (reason : SpeechCancelReason) :
    s.Retired (s.cancelActiveTurn reason) := by
  unfold cancelActiveTurn
  cases hturn : s.turn with
  | none => exact ⟨by rw [speaking, hturn]; rfl, by rw [speaking, hturn]; rfl, by rw [speaking, hturn]; rfl,
      by rw [speaking, hturn]; rfl, .refl _, rfl⟩
  | some turn => exact ⟨rfl, by rw [speaking, hturn]; rfl, by rw [speaking, hturn]; rfl,
      by rw [speaking, hturn]; rfl, .refl _, rfl⟩

theorem failActiveTurn_retired (s : VoiceState) : s.Retired s.failActiveTurn := by
  unfold failActiveTurn
  cases hturn : s.turn with
  | none => exact ⟨by rw [speaking, hturn]; rfl, by rw [speaking, hturn]; rfl, by rw [speaking, hturn]; rfl,
      by rw [speaking, hturn]; rfl, .refl _, rfl⟩
  | some turn => exact ⟨rfl, by rw [speaking, hturn]; rfl, by rw [speaking, hturn]; rfl,
      by rw [speaking, hturn]; rfl, .refl _, rfl⟩

theorem discardCandidate_still (s : VoiceState) (reason : InputDiscardReason) :
    s.Still (s.discardCandidate reason) := by
  unfold discardCandidate
  split <;> exact ⟨rfl, rfl, rfl, rfl, .refl _, rfl⟩

theorem publishCandidateSpeaker_still (platform : Platform) (s : VoiceState) (candidateId : CandidateId) :
    s.Still (s.publishCandidateSpeaker platform candidateId) := by
  unfold publishCandidateSpeaker
  split
  · exact still_self
  · split_ifs
    · split
      · exact still_self
      · dsimp only
        split <;> exact ⟨rfl, rfl, rfl, rfl, .refl _, rfl⟩
    · exact still_self

theorem scheduleRetry_still (s : VoiceState) (now : MonoTimeNs) : s.Still (s.scheduleRetry now) := by
  unfold scheduleRetry
  split <;> exact ⟨rfl, rfl, rfl, rfl, .refl _, rfl⟩

theorem retryIf_still (s : VoiceState) (recoverable : Bool) (now : MonoTimeNs) :
    s.Still (s.retryIf recoverable now) := by
  cases recoverable
  · exact still_self
  · exact s.scheduleRetry_still now

theorem confirmCandidate_turns (platform : Platform) (s : VoiceState) (candidateId : CandidateId) :
    s.Still (s.confirmCandidate platform candidateId) ∧ s.candidate.all CandidateState.confirmed = true ∨
      s.Retired (s.confirmCandidate platform candidateId) ∧ s.candidate.all CandidateState.confirmed = false := by
  unfold confirmCandidate
  split
  · rename_i hconfirmed
    exact Or.inl ⟨still_self, hconfirmed⟩
  · rename_i hconfirmed
    refine Or.inr ⟨?_, by simpa using hconfirmed⟩
    dsimp only
    generalize hfirst : ({ s.setCandidate fun candidate => { candidate with confirmed := true } with
      utteranceStatus := .confirmed } : VoiceState) = confirmed
    have hsame : s.Still (confirmed, []) := by rw [← hfirst]; exact ⟨rfl, rfl, rfl, rfl, .refl _, rfl⟩
    have hretired := hsame.retired (confirmed.cancelActiveTurn_retired .bargeIn)
    generalize confirmed.cancelActiveTurn .bargeIn = cancelled at hretired ⊢
    have hsaid : ∀ bargeIn, cancelled.1.Still
        (cancelled.1, [.emit (.inputConfirmed candidateId bargeIn)]) := fun _ => ⟨rfl, rfl, rfl, rfl, .refl _, rfl⟩
    exact (hretired.after (hsaid _)).after (cancelled.1.publishCandidateSpeaker_still platform candidateId)

end VoiceState

end AvenOS.Voice
