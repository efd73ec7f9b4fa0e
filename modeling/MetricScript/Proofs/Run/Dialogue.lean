import Mathlib
import MetricScript.Proofs.Run.Keeping

/-!
# Runs as dialogues

Of the world outside a run knows only what its provider says.  A dialogue is a computation in
which those answers are left open: it is done, or it asks and goes on in a way that depends on
the answer.  Dialogues are a monad with a provider of their own, `Provider.asking`, which hands
every question on; so a run with that provider tells what a script does for all answers.

A provider with effects in any other monad can answer a dialogue.  `Leads` lists the calls on
one way through a dialogue, and `Heeds` says what holds at the end of all ways on which the
questions and the answers keep to some terms.
-/

namespace MetricScript

variable {m : Type → Type} [Monad m] {α β : Type}

inductive Call where
  | readClock (time : Int64)
  | performed (operation : Operation) (reply : operation.Reply)

def Event.call? : Event → Option Call
  | .readClock time => some (.readClock time)
  | .performed operation reply => some (.performed operation reply)
  | .logged _ | .assigned _ _ | .wrote _ _ => none

def Run.calls (run : Run) : List Call := run.journal.reverse.filterMap Event.call?

/-- A computation that asks a provider. -/
inductive Dialogue (α : Type) where
  | done (outcome : α)
  | readClock (next : Int64 → Dialogue α)
  | perform (operation : Operation) (next : operation.Reply → Dialogue α)

namespace Dialogue

def andThen (next : α → Dialogue β) : Dialogue α → Dialogue β
  | done outcome => next outcome
  | readClock rest => readClock fun time => (rest time).andThen next
  | perform operation rest => perform operation fun reply => (rest reply).andThen next

instance : Monad Dialogue where
  pure := done
  bind dialogue next := dialogue.andThen next

theorem andThen_done (dialogue : Dialogue α) : dialogue.andThen done = dialogue := by
  induction dialogue with
  | done outcome => rfl
  | readClock rest ih => exact congrArg readClock (funext ih)
  | perform operation rest ih => exact congrArg (perform operation) (funext ih)

theorem andThen_andThen {γ : Type} (dialogue : Dialogue α) (next : α → Dialogue β)
    (last : β → Dialogue γ) :
    (dialogue.andThen next).andThen last =
      dialogue.andThen fun outcome => (next outcome).andThen last := by
  induction dialogue with
  | done outcome => rfl
  | readClock rest ih => exact congrArg readClock (funext ih)
  | perform operation rest ih => exact congrArg (perform operation) (funext ih)

instance : LawfulMonad Dialogue :=
  LawfulMonad.mk' Dialogue andThen_done (fun _ _ => rfl) andThen_andThen

end Dialogue

/-- The provider that leaves every answer open. -/
def Provider.asking : Provider Dialogue where
  now := .readClock .done
  perform operation := .perform operation .done

/-! ## Answers -/

namespace Dialogue

def answer (provider : Provider m) : Dialogue α → m α
  | done outcome => pure outcome
  | readClock next => do (next (← provider.now)).answer provider
  | perform operation next => do (next (← provider.perform operation)).answer provider

/-- One way through a dialogue: the calls on it, and the outcome at its end. -/
inductive Leads : Dialogue α → List Call → α → Prop where
  | done (outcome : α) : Leads (.done outcome) [] outcome
  | readClock {next : Int64 → Dialogue α} {calls : List Call} {outcome : α} (time : Int64)
      (hnext : Leads (next time) calls outcome) :
      Leads (.readClock next) (.readClock time :: calls) outcome
  | perform {operation : Operation} {next : operation.Reply → Dialogue α} {calls : List Call}
      {outcome : α} (reply : operation.Reply) (hnext : Leads (next reply) calls outcome) :
      Leads (.perform operation next) (.performed operation reply :: calls) outcome

end Dialogue

/-- Asked one call after the other, the provider gives these answers and ends in the state
`after`. -/
def Provider.Answers {σ : Type} (provider : Provider (StateM σ)) (before : σ) :
    List Call → (after : σ) → Prop
  | [], after => before = after
  | .readClock time :: calls, after =>
      (provider.now.run before).1 = time ∧
        provider.Answers (provider.now.run before).2 calls after
  | .performed operation reply :: calls, after =>
      ((provider.perform operation).run before).1 = reply ∧
        provider.Answers ((provider.perform operation).run before).2 calls after

namespace Dialogue

section Deterministic

variable {σ : Type} {provider : Provider (StateM σ)}

/-- A provider goes one of the ways through a dialogue. -/
theorem exists_leads (dialogue : Dialogue α) (before : σ) :
    ∃ calls, dialogue.Leads calls ((dialogue.answer provider).run before).1 ∧
      provider.Answers before calls ((dialogue.answer provider).run before).2 := by
  induction dialogue generalizing before with
  | done outcome => exact ⟨[], .done outcome, rfl⟩
  | readClock next ih =>
    obtain ⟨calls, hleads, hanswers⟩ :=
      ih (provider.now.run before).1 (provider.now.run before).2
    exact ⟨_, .readClock _ hleads, rfl, hanswers⟩
  | perform operation next ih =>
    obtain ⟨calls, hleads, hanswers⟩ := ih ((provider.perform operation).run before).1
      ((provider.perform operation).run before).2
    exact ⟨_, .perform _ hleads, rfl, hanswers⟩

/-- The answers on a way through a dialogue decide its outcome. -/
theorem Leads.run_answer {dialogue : Dialogue α} {calls : List Call} {outcome : α}
    (hleads : dialogue.Leads calls outcome) {before after : σ}
    (hanswers : provider.Answers before calls after) :
    (dialogue.answer provider).run before = (outcome, after) := by
  induction hleads generalizing before with
  | done outcome => exact congrArg (Prod.mk outcome) hanswers
  | readClock time _ ih =>
    obtain ⟨rfl, hrest⟩ := hanswers
    exact ih hrest
  | perform reply _ ih =>
    obtain ⟨rfl, hrest⟩ := hanswers
    exact ih hrest

end Deterministic

end Dialogue

/-! ## Terms of a dialogue -/

/-- What a run asks for and what it is told, if both sides keep to it. -/
structure Terms where
  asks : Operation → Prop
  answers : (operation : Operation) → operation.Answer → Prop

/-- The answer, if there is one, keeps to the terms. -/
def Terms.Admits (terms : Terms) (operation : Operation) (reply : operation.Reply) : Prop :=
  ∀ answer, reply = .ok answer → terms.answers operation answer

/-- Asked for something within the terms, the provider always keeps to them. -/
def Provider.Respects (provider : Provider m) (terms : Terms) : Prop :=
  ∀ operation, terms.asks operation → Always (provider.perform operation) (terms.Admits operation)

namespace Dialogue

/-- The dialogue asks within the terms as long as the answers keep to them, and `ends` holds
of the calls and the outcome then. -/
def Heeds (terms : Terms) : Dialogue α → (ends : List Call → α → Prop) → Prop
  | done outcome, ends => ends [] outcome
  | readClock next, ends =>
      ∀ time, (next time).Heeds terms fun calls => ends (.readClock time :: calls)
  | perform operation next, ends =>
      terms.asks operation ∧ ∀ reply, terms.Admits operation reply →
        (next reply).Heeds terms fun calls => ends (.performed operation reply :: calls)

variable {terms : Terms}

theorem Heeds.mono {dialogue : Dialogue α} {ends weaker : List Call → α → Prop}
    (hheeds : dialogue.Heeds terms ends)
    (himp : ∀ calls outcome, ends calls outcome → weaker calls outcome) :
    dialogue.Heeds terms weaker := by
  induction dialogue generalizing ends weaker with
  | done outcome => exact himp [] outcome hheeds
  | readClock next ih => exact fun time => ih time (hheeds time) fun calls => himp _
  | perform operation next ih =>
    refine ⟨hheeds.1, fun reply hreply => ?_⟩
    exact ih reply (hheeds.2 reply hreply) fun calls => himp _

theorem Heeds.bind {dialogue : Dialogue α} {next : α → Dialogue β}
    {ends : List Call → β → Prop} (hheeds : dialogue.Heeds terms fun calls outcome =>
      (next outcome).Heeds terms fun further => ends (calls ++ further)) :
    (dialogue >>= next).Heeds terms ends := by
  induction dialogue generalizing ends with
  | done outcome => exact hheeds
  | readClock rest ih => exact fun time => ih time (hheeds time)
  | perform operation rest ih =>
    exact ⟨hheeds.1, fun reply hreply => ih reply (hheeds.2 reply hreply)⟩

/-- If all questions and answers are within the terms, `ends` holds for every way. -/
theorem Heeds.of_leads {dialogue : Dialogue α} {ends : List Call → α → Prop}
    (hheeds : dialogue.Heeds terms ends) (hadmits : ∀ operation reply,
      terms.Admits operation reply) {calls : List Call} {outcome : α}
    (hleads : dialogue.Leads calls outcome) : ends calls outcome := by
  induction hleads generalizing ends with
  | done outcome => exact hheeds
  | readClock time _ ih => exact ih (hheeds time)
  | perform reply _ ih => exact ih (hheeds.2 reply (hadmits _ reply))

variable [LawfulMonad m]

/-- A provider answers a dialogue part by part.  The next part matters only for the outcomes
that the provider, if it keeps to the terms, can bring about. -/
theorem Heeds.answer_bind {dialogue : Dialogue α} {ends : α → Prop}
    (hheeds : dialogue.Heeds terms fun _ => ends) {provider : Provider m}
    (hprovider : provider.Respects terms) {answered : α → m β} {next : α → Dialogue β}
    (hnext : ∀ outcome, ends outcome → answered outcome = (next outcome).answer provider) :
    dialogue.answer provider >>= answered = (dialogue >>= next).answer provider := by
  induction dialogue with
  | done outcome =>
    change pure outcome >>= answered = _
    rw [pure_bind]
    exact hnext outcome hheeds
  | readClock rest ih =>
    change (provider.now >>= fun time => (rest time).answer provider) >>= answered =
      provider.now >>= fun time => (rest time >>= next).answer provider
    rw [bind_assoc]
    exact congrArg _ (funext fun time => ih time (hheeds time))
  | perform operation rest ih =>
    change (provider.perform operation >>= fun reply => (rest reply).answer provider) >>= answered =
      provider.perform operation >>= fun reply => (rest reply >>= next).answer provider
    obtain ⟨checked, hchecked⟩ := hprovider operation hheeds.1
    rw [bind_assoc, ← hchecked, bind_map_left, bind_map_left]
    exact congrArg _ (funext fun reply => ih reply.1 (hheeds.2 reply.1 reply.2))

/-- What a provider with a state of its own keeps up while it answers a dialogue, in
surroundings that change as well. -/
theorem Heeds.keeps_answer {σ τ : Type} {provider : Provider (StateT σ (StateM τ))}
    {keeps : σ → τ → Prop}
    (hnow : ∀ state around, keeps state around →
      keeps (provider.now state around).1.2 (provider.now state around).2)
    (hperform : ∀ operation, terms.asks operation → ∀ state around, keeps state around →
      terms.Admits operation (provider.perform operation state around).1.1 ∧
        keeps (provider.perform operation state around).1.2
          (provider.perform operation state around).2)
    {dialogue : Dialogue α} {ends : List Call → α → Prop} (hheeds : dialogue.Heeds terms ends)
    {state : σ} {around : τ} (hkeeps : keeps state around) :
    keeps (dialogue.answer provider state around).1.2
      (dialogue.answer provider state around).2 := by
  induction dialogue generalizing ends state around with
  | done outcome => exact hkeeps
  | readClock next ih => exact ih _ (hheeds _) (hnow state around hkeeps)
  | perform operation next ih =>
    obtain ⟨hadmits, hafter⟩ := hperform operation hheeds.1 state around hkeeps
    exact ih _ (hheeds.2 _ hadmits) hafter

end Dialogue

end MetricScript
