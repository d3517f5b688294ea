/-!
# Requests one after the other

A system answers requests and goes from state to state. A specification relates a state and a
request to the answers that are right and to the states that may come of them. A system that meets
a specification with every single request meets it with any number of them.
-/

namespace SoftSimplex.Requests

variable {State Request Answer Meaning : Type}

/-- Do what is asked one after the other. -/
def follow (perform : State → Request → Answer × State) (state : State) :
    List Request → List Answer × State
  | [] => ([], state)
  | request :: rest =>
      let (answer, state) := perform state request
      let (answers, state) := follow perform state rest
      (answer :: answers, state)

/-- The answers that are right one after the other, and the state that comes of them. -/
inductive AllMeant (meant : Meaning → Request → Answer → Meaning → Prop) :
    Meaning → List Request → List Answer → Meaning → Prop where
  | nil (state : Meaning) : AllMeant meant state [] [] state
  | cons {before between after : Meaning} {request : Request} {answer : Answer}
      {rest : List Request} {answers : List Answer} (first : meant before request answer between)
      (later : AllMeant meant between rest answers after) :
      AllMeant meant before (request :: rest) (answer :: answers) after

theorem follow_allMeant {perform : State → Request → Answer × State}
    {meant : Meaning → Request → Answer → Meaning → Prop} {meaning : State → Meaning}
    (each : ∀ state request, meant (meaning state) request (perform state request).1
      (meaning (perform state request).2)) (state : State) (requests : List Request) :
    AllMeant meant (meaning state) requests (follow perform state requests).1
      (meaning (follow perform state requests).2) := by
  induction requests generalizing state with
  | nil => exact .nil _
  | cons request rest inductionHypothesis =>
      exact .cons (each state request) (inductionHypothesis _)

/-- What every single request keeps, any number of requests keep, and all answers are of the sort
that single requests get. -/
theorem follow_invariant {perform : State → Request → Answer × State} (kept : State → Prop)
    (sort : Answer → Prop)
    (each : ∀ state request, kept state →
      sort (perform state request).1 ∧ kept (perform state request).2)
    {state : State} (holds : kept state) (requests : List Request) :
    (∀ answer ∈ (follow perform state requests).1, sort answer) ∧
      kept (follow perform state requests).2 := by
  induction requests generalizing state with
  | nil => exact ⟨fun answer member => absurd member List.not_mem_nil, holds⟩
  | cons request rest inductionHypothesis =>
      rcases each state request holds with ⟨first, now⟩
      rcases inductionHypothesis now with ⟨later, after⟩
      refine ⟨fun answer member => ?_, after⟩
      rcases List.mem_cons.mp member with rfl | inside
      · exact first
      · exact later answer inside

end SoftSimplex.Requests
