import MnemoKV.SlotDatasets
import MnemoKV.StripeIndependence

/-!
# What an answer depends on

Without a memory limit, a command sees what is stored under its own keys and leaves the
rest alone.  Hence clients with different keys do not notice one another.
-/

namespace MnemoKV

section Answers

variable [FloatText] {Member : Bytes → Prop} [DecidablePred Member] {cmd : Command}

namespace Store

/-- A result with what is then stored under the members. -/
def sight {α : Type} (Member : Bytes → Prop) [DecidablePred Member] (outcome : α × Store) :
    α × Dataset :=
  (outcome.1, outcome.2.dataset.within Member)

/-- `Engine.Execute` without a limit and a hook. -/
def answer (clock : WriteClock) (cmd : Command) (store : Store) : Frame × Store :=
  if cmd.isWriteCommand then
    let (plan, store) := store.planAdmission clock.plan cmd
    match plan.response with
    | some frame => (frame, store)
    | none => Executor.execute clock.exec cmd store
  else Executor.execute clock.exec cmd store

theorem sight_execute (members : cmd.KeysIn Member) (now : Readings) (store : Store) :
    sight Member (Executor.execute now cmd store) =
      (cmd.action now).perform (store.dataset.within Member) := by
  have keys : ∀ key ∈ (cmd.action now).keys, Member key :=
    fun key listed => members key (cmd.action_keys_subset now listed)
  rw [sight, Executor.frame_execute, Executor.dataset_execute]
  generalize cmd.action now = action at keys ⊢
  by_cases confined : action.Confined
  · exact (Action.perform_within confined keys _).symm
  · cases action with
    | clear => exact Prod.ext rfl (funext fun key => ite_self _)
    | _ => exact absurd trivial confined

theorem sight_planAdmission (members : cmd.KeysIn Member) {first second : Store}
    (same : first.dataset.within Member = second.dataset.within Member) (now : Readings) :
    sight Member (first.planAdmission now cmd) =
      sight Member (second.planAdmission now cmd) := by
  rcases cmd.planned now with ⟨-, plans, -⟩ | ⟨-, plans, -⟩ | @⟨key, request, asks⟩
  · rw [plans, plans]
    exact Prod.ext rfl same
  · rw [plans, plans]
    exact Prod.ext rfl same
  · obtain ⟨keys, plans, -, -⟩ := asks.spec
    have member : Member key := members key (keys ▸ List.mem_cons_self)
    have seen := congrFun same key
    rw [Dataset.within_of_mem member, Dataset.within_of_mem member] at seen
    simp only [plans, planFrom, sight, dataset_get, Dataset.within_update_of_mem member, seen,
      same]

/-- Stores that agree under the keys of a command answer alike and agree afterwards. -/
theorem sight_answer (members : cmd.KeysIn Member) {first second : Store}
    (same : first.dataset.within Member = second.dataset.within Member) (clock : WriteClock) :
    sight Member (first.answer clock cmd) = sight Member (second.answer clock cmd) := by
  have planned := sight_planAdmission members same clock.plan
  unfold answer
  revert planned
  generalize first.planAdmission clock.plan cmd = one
  generalize second.planAdmission clock.plan cmd = other
  obtain ⟨plan, one⟩ := one
  obtain ⟨plan', other⟩ := other
  intro planned
  obtain ⟨rfl, parts⟩ := Prod.mk.inj planned
  split_ifs
  · dsimp only
    cases plan.response with
    | some frame => exact Prod.ext rfl parts
    | none => rw [sight_execute members, sight_execute members, parts]
  · rw [sight_execute members, sight_execute members, same]

/-- A command leaves what is stored under other keys alone. -/
theorem part_answer (kept : cmd.isFlush = false)
    (foreign : ∀ key ∈ cmd.extractKeys, ¬ Member key) (clock : WriteClock) (store : Store) :
    (store.answer clock cmd).2.dataset.within Member = store.dataset.within Member := by
  have executed (store : Store) :
      (Executor.execute clock.exec cmd store).2.dataset.within Member =
        store.dataset.within Member := by
    rw [Executor.dataset_execute]
    exact Command.within_perform_of_disjoint kept foreign clock.exec _
  have planned : (store.planAdmission clock.plan cmd).2.dataset.within Member =
      store.dataset.within Member := by
    rcases cmd.planned clock.plan with ⟨-, plans, -⟩ | ⟨-, plans, -⟩ | @⟨key, request, asks⟩
    · rw [plans]
    · rw [plans]
    · obtain ⟨keys, plans, -, -⟩ := asks.spec
      refine Dataset.within_congr fun other member => ?_
      rw [plans, planFrom, (store.dataset_get _ key false).1]
      refine Function.update_of_ne ?_ _ _
      rintro rfl
      exact foreign other (keys ▸ List.mem_cons_self) member
  unfold answer
  split_ifs
  · dsimp only
    split
    · exact planned
    · exact (executed _).trans planned
  · exact executed store

end Store

namespace Engine

theorem answer_eq {engine : Engine} (unlimited : engine.limitBytes = 0) (clock : WriteClock)
    (choices : Nat → Choices) :
    engine.answer clock choices cmd =
      ((engine.store.answer clock cmd).1, engine.withStore (engine.store.answer clock cmd).2) := by
  rw [answer_unlimited unlimited, Store.answer]
  split_ifs
  · dsimp only
    cases (engine.store.planAdmission clock.plan cmd).1.response <;> rfl
  · rfl

/-- Engines that agree under the keys of some commands answer them alike. -/
theorem answers_agree {calls : List (WriteClock × Command)}
    (members : ∀ call ∈ calls, call.2.KeysIn Member) {first second : Engine}
    (firstUnlimited : first.limitBytes = 0) (secondUnlimited : second.limitBytes = 0)
    (same : first.store.dataset.within Member = second.store.dataset.within Member)
    (choices others : Nat → Nat → Choices) :
    (first.answers choices calls).1 = (second.answers others calls).1 := by
  induction calls generalizing first second with
  | nil => rfl
  | cons call calls induction =>
      have seen := Store.sight_answer (members call List.mem_cons_self) same call.1
      simp only [answers, answer_eq firstUnlimited, answer_eq secondUnlimited]
      refine congrArg₂ List.cons (Prod.mk.inj seen).1 (induction
        (fun call listed => members call (List.mem_cons_of_mem _ listed)) ?_ ?_
        (Prod.mk.inj seen).2)
      · exact firstUnlimited
      · exact secondUnlimited

/-- The replies that go to one of the clients. -/
def repliesTo {Client Call : Type} [DecidableEq Client] (client : Client)
    (calls : List (Client × Call)) (frames : List Frame) : List Frame :=
  (((calls.map Prod.fst).zip frames).filter fun reply => reply.1 = client).map Prod.snd

/-- Clients that work on different keys, over an engine without a limit: whatever the
order in which their commands arrive, each gets the replies that it gets alone. -/
theorem clients_do_not_interfere {Client : Type} [DecidableEq Client]
    (owner : Bytes → Client) (engine : Engine) (unlimited : engine.limitBytes = 0)
    (calls : List (Client × WriteClock × Command))
    (own : ∀ call ∈ calls, call.2.2.isFlush = false ∧
      call.2.2.KeysIn fun key => owner key = call.1)
    (choices alone : Nat → Nat → Choices) (client : Client) :
    repliesTo client calls (engine.answers choices (calls.map Prod.snd)).1 =
      (engine.answers alone
        ((calls.filter fun call => call.1 = client).map Prod.snd)).1 := by
  -- The engine that serves the client alone need only agree under the client's keys.
  suffices agree : ∀ apart : Engine, apart.limitBytes = 0 →
      (engine.store.dataset.within fun key => owner key = client) =
        apart.store.dataset.within (fun key => owner key = client) →
      repliesTo client calls (engine.answers choices (calls.map Prod.snd)).1 =
        (apart.answers alone ((calls.filter fun call => call.1 = client).map Prod.snd)).1 from
    agree _ unlimited rfl
  induction calls generalizing engine with
  | nil => exact fun _ _ _ => rfl
  | cons call calls induction =>
      intro apart unlimited' same
      have rest (store : Store) := induction (engine.withStore store) unlimited
        fun call listed => own call (List.mem_cons_of_mem _ listed)
      obtain ⟨kept, keys⟩ := own call List.mem_cons_self
      obtain ⟨name, clock, cmd⟩ := call
      dsimp only at kept keys
      unfold repliesTo at rest ⊢
      by_cases mine : name = client
      · subst mine
        have seen := Store.sight_answer keys same clock
        simp only [List.map_cons, answers, answer_eq unlimited, List.zip_cons_cons,
          List.filter_cons, decide_true, if_true, answer_eq unlimited']
        exact congrArg₂ List.cons (Prod.mk.inj seen).1
          (rest _ (apart.withStore _) unlimited' (Prod.mk.inj seen).2)
      · have left : ((engine.store.answer clock cmd).2.dataset.within fun key =>
            owner key = client) = _ := Store.part_answer kept
          (fun key listed here => mine ((keys key listed).symm.trans here)) clock engine.store
        simp only [List.map_cons, answers, answer_eq unlimited, List.zip_cons_cons,
          List.filter_cons, mine, decide_false, Bool.false_eq_true, if_false]
        exact rest _ apart unlimited' (left.trans same)

end Engine
end Answers

section Examples

attribute [local instance] FloatText.rejecting

/-- Another client stores a value between the two commands of the first one. -/
def twoClients : List (Bool × WriteClock × Command) :=
  [(true, .still 0, .make .set [[1], [7]]), (false, .still 1, .make .set [[2], [8]]),
    (true, .still 2, .make .get [[1]])]

theorem Engine.two_clients_do_not_interfere :
    let engine : Engine := { store := .new 1, limitBytes := 0, policy := .noEviction }
    repliesTo true twoClients
        (engine.answers (fun _ _ => .canonical) (twoClients.map Prod.snd)).1 =
      (engine.answers (fun _ _ => .canonical)
        [(.still 0, .make .set [[1], [7]]), (.still 2, .make .get [[1]])]).1 :=
  clients_do_not_interfere (fun key => decide (key = [1])) _ rfl twoClients
    (by unfold Command.KeysIn; decide) _ _ true

end Examples

end MnemoKV
