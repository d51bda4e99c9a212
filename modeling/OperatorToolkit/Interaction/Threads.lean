import Mathlib.Data.List.Flatten
import Mathlib.Data.List.Perm.Basic
import OperatorToolkit.Interaction.Program

/-!
# Threads that start other threads

Programs that run at the same time and share nothing. A call of a main thread may start workers, and
from then on these run in any order with all the others. Each thread keeps the calls it has made,
with a stamp on each of them, such as the time. What is true of the first calls of a program is
therefore true of each thread that runs it, and the workers are those that the calls of the main
threads have started, each of them once.
-/

namespace OperatorToolkit.Interaction

open Program Relation

variable {S T : Signature} {α β τ : Type}

/-! ## The first calls of a program -/

/-- The program can make exactly these calls with exactly these replies, and then the rest of it
is left. -/
inductive Leads : Program S α → List S.Call → Program S α → Prop where
  | nil {program} : Leads program [] program
  | cons {request next reply calls rest} : Leads (next reply) calls rest →
      Leads (.call request next) (⟨request, reply⟩ :: calls) rest

theorem Leads.concat {program : Program S α} {calls : List S.Call} {request : S.Request}
    {next : S.Reply request → Program S α} (h : Leads program calls (.call request next))
    (reply : S.Reply request) : Leads program (calls ++ [⟨request, reply⟩]) (next reply) := by
  generalize hrest : Program.call request next = rest at h
  induction h with
  | nil =>
    subst hrest
    exact .cons .nil
  | cons _ ih => exact .cons (ih hrest)

theorem leads_done_iff {value : α} {calls : List S.Call} {rest : Program S α} :
    Leads (.done value) calls rest ↔ calls = [] ∧ rest = .done value := by
  constructor
  · intro h
    cases h
    exact ⟨rfl, rfl⟩
  · rintro ⟨rfl, rfl⟩
    exact .nil

theorem leads_call_iff {request : S.Request} {next : S.Reply request → Program S α}
    {calls : List S.Call} {rest : Program S α} :
    Leads (.call request next) calls rest ↔ (calls = [] ∧ rest = .call request next) ∨
      ∃ reply calls', calls = ⟨request, reply⟩ :: calls' ∧ Leads (next reply) calls' rest := by
  constructor
  · intro h
    cases h with
    | nil => exact .inl ⟨rfl, rfl⟩
    | cons h => exact .inr ⟨_, _, rfl, h⟩
  · rintro (⟨rfl, rfl⟩ | ⟨reply, calls', rfl, h⟩)
    · exact .nil
    · exact .cons h

theorem Leads.runs {program : Program S α} {calls : List S.Call} {value : α}
    (h : Leads program calls (.done value)) : Runs program calls value := by
  generalize hrest : Program.done value = rest at h
  induction h with
  | nil =>
    subst hrest
    exact .done value
  | cons _ ih => exact .call (ih hrest)

/-- Either the first part of a program is under way, or it has returned. -/
theorem leads_bind {program : Program S α} {next : α → Program S β} {calls : List S.Call}
    {rest : Program S β} (h : Leads (program >>= next) calls rest) :
    (∃ request more, Leads program calls (.call request more) ∧
        rest = .call request fun reply ↦ more reply >>= next) ∨
      ∃ first value last, calls = first ++ last ∧ Leads program first (.done value) ∧
        Leads (next value) last rest := by
  induction program generalizing calls with
  | done value => exact .inr ⟨[], value, calls, rfl, .nil, h⟩
  | call request program ih =>
    rw [call_bind] at h
    rcases leads_call_iff.mp h with ⟨rfl, rfl⟩ | ⟨reply, calls', rfl, hnext⟩
    · exact .inl ⟨request, program, .nil, rfl⟩
    · rcases ih reply hnext with ⟨request', more, hleads, rfl⟩ |
        ⟨first, value, last, rfl, hfirst, hlast⟩
      · exact .inl ⟨request', more, .cons hleads, rfl⟩
      · exact .inr ⟨_, value, last, rfl, .cons hfirst, hlast⟩

/-- A program that only returns another value. -/
theorem leads_bind_done {program : Program S α} {f : α → β} {calls : List S.Call}
    {rest : Program S β} (h : Leads (program >>= fun value ↦ .done (f value)) calls rest) :
    ∃ program', Leads program calls program' ∧
      ((∃ value, rest = .done value) → ∃ value, program' = .done value) := by
  rcases leads_bind h with ⟨request, more, hleads, rfl⟩ | ⟨first, value, last, rfl, hfirst, hlast⟩
  · exact ⟨_, hleads, nofun⟩
  · obtain ⟨rfl, rfl⟩ := leads_done_iff.mp hlast
    exact ⟨.done value, by rwa [List.append_nil], fun _ ↦ ⟨value, rfl⟩⟩

/-! ## Threads -/

/-- A thread of execution: its code, the stamped calls it has made, and what is left to do. -/
structure Thread (S : Signature) (α τ : Type) where
  code : Program S α
  history : List (S.Call × τ)
  rest : Program S α
  leads : Leads code (history.map Prod.fst) rest

def Thread.calls (t : Thread S α τ) : List S.Call := t.history.map Prod.fst

def Thread.start (code : Program S α) : Thread S α τ := ⟨code, [], code, .nil⟩

/-- The thread after its next call. -/
def Thread.called {code : Program S α} {history : List (S.Call × τ)} {request : S.Request}
    {next : S.Reply request → Program S α}
    (h : Leads code (history.map Prod.fst) (.call request next)) (reply : S.Reply request)
    (stamp : τ) : Thread S α τ where
  code := code
  history := history ++ [(⟨request, reply⟩, stamp)]
  rest := next reply
  leads := List.map_append ▸ h.concat reply

/-- The main threads, and the workers that they have started. -/
structure Threads (S T : Signature) (α β τ : Type) where
  mains : List (Thread S α τ)
  workers : List (Thread T β τ)

inductive ThreadsStep (launch : S.Request → List (Program T β)) :
    Threads S T α β τ → Threads S T α β τ → Prop where
  | main {before after workers code history request next} (reply : S.Reply request) (stamp : τ)
      (h : Leads code (history.map Prod.fst) (.call request next)) :
      ThreadsStep launch ⟨before ++ ⟨code, history, .call request next, h⟩ :: after, workers⟩
        ⟨before ++ .called h reply stamp :: after, workers ++ (launch request).map .start⟩
  | worker {mains before after code history request next} (reply : T.Reply request) (stamp : τ)
      (h : Leads code (history.map Prod.fst) (.call request next)) :
      ThreadsStep launch ⟨mains, before ++ ⟨code, history, .call request next, h⟩ :: after⟩
        ⟨mains, before ++ .called h reply stamp :: after⟩

/-- Some interleaving of the main threads and their workers leads here. -/
def ThreadsReach (launch : S.Request → List (Program T β)) (codes : List (Program S α)) :
    Threads S T α β τ → Prop :=
  ReflTransGen (ThreadsStep launch) ⟨codes.map .start, []⟩

variable {launch : S.Request → List (Program T β)} {codes : List (Program S α)}
  {threads threads' : Threads S T α β τ}

/-- The code of the workers that a thread has started. -/
def Thread.launched (launch : S.Request → List (Program T β)) (t : Thread S α τ) :
    List (Program T β) :=
  t.calls.flatMap fun call ↦ launch call.1

theorem ThreadsReach.mains_code (h : ThreadsReach launch codes threads) :
    threads.mains.map (·.code) = codes := by
  induction h with
  | refl => simp [Thread.start, Function.comp_def]
  | tail _ hstep ih =>
    cases hstep with
    | main => simpa [Thread.called] using ih
    | worker => exact ih

theorem Thread.launched_called {code : Program S α} {history : List (S.Call × τ)}
    {request : S.Request} {next : S.Reply request → Program S α}
    (h : Leads code (history.map Prod.fst) (.call request next)) (reply : S.Reply request)
    (stamp : τ) :
    (Thread.called h reply stamp).launched launch =
      (Thread.mk code history _ h).launched launch ++ launch request := by
  simp [Thread.launched, Thread.calls, Thread.called]

/-- No start of a worker is lost and none is made twice. -/
theorem ThreadsReach.workers_code (h : ThreadsReach launch codes threads) :
    (threads.workers.map (·.code)).Perm (threads.mains.flatMap (·.launched launch)) := by
  induction h with
  | refl => simp [Thread.start, Thread.launched, Thread.calls]
  | tail _ hstep ih =>
    cases hstep with
    | @main before after workers code history request next reply stamp hleads =>
      simp only [List.flatMap_append, List.flatMap_cons] at ih ⊢
      rw [List.map_append, List.map_map, Thread.launched_called, List.append_assoc]
      -- The new workers are last in the list, but not the last that were started.
      refine (ih.append_right _).trans ?_
      rw [List.append_assoc, List.append_assoc]
      simpa [Thread.start, Function.comp_def] using
        (List.perm_append_comm.append_left _).append_left _
    | worker => simpa [Thread.called] using ih

end OperatorToolkit.Interaction
