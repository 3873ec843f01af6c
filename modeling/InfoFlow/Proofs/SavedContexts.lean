import InfoFlow.Digest
import InfoFlow.Proofs.Replays
import InfoFlow.Proofs.SavedForms

/-! # Interrupted replays

A context is read back from its text without loss. So a replay can be interrupted anywhere, and the loaded context
goes on as the one that was saved would have. -/

namespace InfoFlow.Context

variable {c : Context} {before after : List Step}

theorem answers_append : c.answers (before ++ after) = c.answers before ++ (c.replay before).answers after := by
  induction before generalizing c with
  | nil => rfl
  | cons step rest ih => simp [answers, ih]

theorem keepGoing_append : c.keepGoing (before ++ after) = (c.keepGoing before).keepGoing after := List.foldl_append

theorem outcomes_append :
    c.outcomes (before ++ after) = c.outcomes before ++ (c.keepGoing before).outcomes after := by
  induction before generalizing c with
  | nil => rfl
  | cons step rest ih => simp [ih, keepGoing]

/-- A replay that reaches the context `reach c trace` and answers `replies c trace` is interrupted after `before`, and
the loaded context `d` takes it up with `after`: nothing shows that it was interrupted. -/
structure Resumes (reach : Context → List Step → Context)
    (replies : Context → List Step → List (Except PolicyError Label)) (c : Context) (before after : List Step)
    (d : Context) : Prop where
  loaded : load? (save (reach c before)) = some d
  replies : replies c before ++ replies d after = replies c (before ++ after)
  state : reach d after = reach c (before ++ after)
  digestInput : EventLog.digestInput (reach d after).log.events =
    EventLog.digestInput (reach c (before ++ after)).log.events

/-- The context that was saved is the one that takes the replay up. -/
theorem resumes_of_append {reach : Context → List Step → Context}
    {replies : Context → List Step → List (Except PolicyError Label)}
    (hreach : reach c (before ++ after) = reach (reach c before) after)
    (hreplies : replies c (before ++ after) = replies c before ++ replies (reach c before) after) :
    Resumes reach replies c before after (reach c before) where
  loaded := load?_save _
  replies := hreplies.symm
  state := hreach.symm
  digestInput := by rw [hreach]

/-- Saving and loading loses nothing of a context, so interrupting a replay of any trace anywhere changes neither an
answer nor the context at the end, whether blocked writes are acknowledged or not. -/
theorem saved_replays (c : Context) :
    load? (save c) = some c ∧
      ∀ before after : List Step,
        (∃ d, Resumes replay answers c before after d) ∧
          ∃ d, Resumes keepGoing outcomes c before after d := by
  refine ⟨load?_save c, fun before _ => ⟨⟨c.replay before, ?_⟩, ⟨c.keepGoing before, ?_⟩⟩⟩
  · exact resumes_of_append replay_append answers_append
  · exact resumes_of_append keepGoing_append outcomes_append

end InfoFlow.Context
