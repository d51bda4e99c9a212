import OperatorToolkit.Composite.Runs
import OperatorToolkit.Composite.World

/-!
# The finalizer protects what Operate sets up

As long as an operation has not been followed by a successful cleanup, the object in the API carries
the reconciler's finalizer, so it cannot disappear. This is an invariant of every run. It survives a
failed update, because `Reconcile` stops after every update of the finalizers, and operates only on
an object that already carried the finalizer when it was read.
-/

namespace OperatorToolkit.Composite

open Interaction Object

variable {Spec Status Err Work : Type}

/-- An operation has not been followed by a successful cleanup; the history is latest first. -/
def pending : List (Entry Spec Status Err Work) → Bool
  | [] => false
  | entry :: earlier => entry.isOperate || (!entry.isCleaned && pending earlier)

def lastRead : List (Entry Spec Status Err Work) → Option (TargetObject Spec Status)
  | [] => none
  | .read obj :: _ => some obj
  | _ :: earlier => lastRead earlier

/-- A cleanup returned a nil error after the object was marked for deletion. -/
def CleanedSinceMarked (history : List (Entry Spec Status Err Work)) : Prop :=
  ∃ later earlier, history = later ++ .marked :: earlier ∧ ∃ entry ∈ later, entry.isCleaned

namespace World

/-- The object in the API has the finalizer. -/
def Carries (s : World Spec Status Err Work) (finalizer : String) : Prop :=
  ∃ obj, s.stored = some obj ∧ finalizer ∈ obj.finalizers

theorem stored_store {s : World Spec Status Err Work} {obj obj' : TargetObject Spec Status}
    (h : (s.store obj).stored = some obj') : obj' = obj := by
  simp only [store] at h
  split at h
  · cases h
  · exact (Option.some.inj h).symm

theorem carries_store_iff {s : World Spec Status Err Work} {obj : TargetObject Spec Status}
    {finalizer : String} :
    (s.store obj).Carries finalizer ↔ finalizer ∈ obj.finalizers := by
  constructor
  · rintro ⟨obj', hstored, hmem⟩
    rwa [stored_store hstored] at hmem
  · intro hmem
    have hkept : ¬ (obj.deletionTimestamp.isSome ∧ obj.finalizers = []) := by
      rintro ⟨_, hnil⟩
      simp [hnil] at hmem
    exact ⟨obj, if_neg hkept, hmem⟩

theorem carries_iff_of_stored {s : World Spec Status Err Work} {obj : TargetObject Spec Status}
    {finalizer : String} (h : s.stored = some obj) :
    s.Carries finalizer ↔ finalizer ∈ obj.finalizers := by
  simp [Carries, h]

@[simp] theorem carries_record {s : World Spec Status Err Work} {finalizer : String}
    {entry : Entry Spec Status Err Work} :
    (s.record entry).Carries finalizer ↔ s.Carries finalizer := Iff.rfl

end World

/-! ## The invariant -/

section Invariant

variable (ctrl : Controller Spec Status Err Work) (finalizer : String)

structure FinalizerInv (s : World Spec Status Err Work) : Prop where
  carries : pending s.history → s.Carries finalizer
  marked : ∀ obj, s.stored = some obj → obj.deletionTimestamp.isSome → .marked ∈ s.history
  behaves : ∀ call work, .called call work ∈ s.history → ctrl.Behaves call work

/-- What is known of the world once the object was read; `inst` is the copy in memory. -/
structure Held (read inst : TargetObject Spec Status) (s : World Spec Status Err Work) :
    Prop where
  inv : FinalizerInv ctrl finalizer s
  same : SameMetadata read inst
  lastRead : lastRead s.history = some read
  carries : finalizer ∈ read.finalizers → s.Carries finalizer
  marked : read.deletionTimestamp.isSome → .marked ∈ s.history

/-- When the calls that matter are made. -/
def Guarded (s : World Spec Status Err Work) : ReconcileRequest Spec Status → Prop
  | .operate obj => s.Carries finalizer ∧ ∃ read, lastRead s.history = some read ∧
      SameMetadata read obj ∧ finalizer ∈ read.finalizers ∧ read.deletionTimestamp = none
  | .update obj => finalizer ∉ obj.finalizers → CleanedSinceMarked s.history
  | _ => True

end Invariant

variable {ctrl : Controller Spec Status Err Work} {finalizer : String}
  {s s' : World Spec Status Err Work} {read inst inst' : TargetObject Spec Status}

theorem Interferes.carries_iff (h : Interferes finalizer s s') :
    s'.Carries finalizer ↔ s.Carries finalizer := by
  cases h with
  | deleted time hstored _ =>
    rw [World.carries_record, World.carries_store_iff, World.carries_iff_of_stored hstored]
  | changed hstored hfinalizer _ =>
    rw [World.carries_store_iff, World.carries_iff_of_stored hstored, ← hfinalizer]

/-- Other parties leave no trace in the history, except for the mark. -/
theorem Interferes.history (h : Interferes finalizer s s') :
    s'.history = s.history ∨ s'.history = .marked :: s.history := by
  cases h with
  | deleted time _ _ => exact .inr rfl
  | changed _ _ _ => exact .inl rfl

theorem Interferes.mem_history (h : Interferes finalizer s s') {entry}
    (hentry : entry ∈ s.history) : entry ∈ s'.history := by
  rcases h.history with heq | heq <;> simp [heq, hentry]

theorem Interferes.pending (h : Interferes finalizer s s') :
    pending s'.history = pending s.history := by
  rcases h.history with heq | heq <;>
    simp [heq, Composite.pending, Entry.isOperate, Entry.isCleaned]

theorem Interferes.lastRead (h : Interferes finalizer s s') :
    lastRead s'.history = lastRead s.history := by
  rcases h.history with heq | heq <;> simp [heq, Composite.lastRead]

theorem Interferes.cleanedSinceMarked (h : Interferes finalizer s s')
    (hcleaned : CleanedSinceMarked s.history) : CleanedSinceMarked s'.history := by
  obtain ⟨later, earlier, heq, entry, hentry, hclean⟩ := hcleaned
  rcases h.history with heq' | heq'
  · exact ⟨later, earlier, heq'.trans heq, entry, hentry, hclean⟩
  · exact ⟨.marked :: later, earlier, by rw [heq', heq]; rfl, entry, by simp [hentry], hclean⟩

theorem Interferes.marked (h : Interferes finalizer s s')
    (hmarked : ∀ obj, s.stored = some obj → obj.deletionTimestamp.isSome → .marked ∈ s.history)
    {obj : TargetObject Spec Status} (hstored : s'.stored = some obj)
    (hdeleted : obj.deletionTimestamp.isSome) : .marked ∈ s'.history := by
  cases h with
  | deleted time _ _ => exact List.mem_cons_self
  | changed hold _ htime =>
    rw [World.stored_store hstored, htime] at hdeleted
    exact hmarked _ hold hdeleted

theorem FinalizerInv.interferes (h : FinalizerInv ctrl finalizer s)
    (hstep : Interferes finalizer s s') : FinalizerInv ctrl finalizer s' where
  carries hpending := hstep.carries_iff.mpr (h.carries (hstep.pending ▸ hpending))
  marked _ := hstep.marked h.marked
  behaves call work hcall := by
    rcases hstep.history with heq | heq <;> rw [heq] at hcall
    · exact h.behaves call work hcall
    · rcases List.mem_cons.mp hcall with hmark | hcall
      · cases hmark
      · exact h.behaves call work hcall

theorem Held.interferes (h : Held ctrl finalizer read inst s)
    (hstep : Interferes finalizer s s') : Held ctrl finalizer read inst s' where
  inv := h.inv.interferes hstep
  same := h.same
  lastRead := hstep.lastRead.trans h.lastRead
  carries hfinalizer := hstep.carries_iff.mpr (h.carries hfinalizer)
  marked hdeleted := hstep.mem_history (h.marked hdeleted)

/-! ## Answers -/

theorem answers_method {request : ReconcileRequest Spec Status}
    {reply : (reconcileCalls Spec Status Err).Reply request} (hmethod : request.isMethod)
    (h : Answers ctrl s request reply s') :
    ∃ work, ctrl.Behaves ⟨request, reply⟩ work ∧ s' = s.record (.called ⟨request, reply⟩ work) := by
  cases h with
  | method _ hbehaves => exact ⟨_, hbehaves, rfl⟩
  | found | notFound | getFailed | updated | updateFailed | statusUpdated | statusUpdateFailed =>
    cases hmethod

theorem answers_update {obj : TargetObject Spec Status} {reply : Option Err}
    (h : Answers ctrl s (.update obj) reply s') :
    s' = s ∨ ∃ old, s.stored = some old ∧ s' = s.store (old.updated obj) := by
  cases h with
  | updated hstored _ => exact .inr ⟨_, hstored, rfl⟩
  | updateFailed => exact .inl rfl
  | method hmethod _ => cases hmethod

theorem answers_statusUpdate {obj : TargetObject Spec Status} {reply : Option Err}
    (h : Answers ctrl s (.statusUpdate obj) reply s') :
    s' = s ∨ ∃ old, s.stored = some old ∧ s' = s.store (old.statusUpdated obj) := by
  cases h with
  | statusUpdated hstored _ => exact .inr ⟨_, hstored, rfl⟩
  | statusUpdateFailed => exact .inl rfl
  | method hmethod _ => cases hmethod

theorem FinalizerInv.record (h : FinalizerInv ctrl finalizer s)
    {entry : Entry Spec Status Err Work}
    (hoperate : entry.isOperate = false ∨ s.Carries finalizer)
    (hbehaves : ∀ call work, entry = .called call work → ctrl.Behaves call work) :
    FinalizerInv ctrl finalizer (s.record entry) where
  carries hpending := by
    rcases hoperate with hquiet | hcarries
    · simp only [World.record, pending, hquiet, Bool.false_or, Bool.and_eq_true] at hpending
      exact h.carries hpending.2
    · exact hcarries
  marked obj hstored hdeleted := List.mem_cons_of_mem _ (h.marked obj hstored hdeleted)
  behaves call work hcall := by
    rcases List.mem_cons.mp hcall with heq | hcall
    · exact hbehaves call work heq.symm
    · exact h.behaves call work hcall

theorem FinalizerInv.method (h : FinalizerInv ctrl finalizer s)
    {request : ReconcileRequest Spec Status}
    {reply : (reconcileCalls Spec Status Err).Reply request} (hmethod : request.isMethod)
    (hoperate : request.isOperate = false ∨ s.Carries finalizer)
    (hanswer : Answers ctrl s request reply s') : FinalizerInv ctrl finalizer s' := by
  obtain ⟨work, hbehaves, rfl⟩ := answers_method hmethod hanswer
  refine h.record hoperate fun call' work' heq ↦ ?_
  cases heq
  exact hbehaves

theorem FinalizerInv.interrupts (h : FinalizerInv ctrl finalizer s)
    {request : ReconcileRequest Spec Status}
    (hoperate : request.isOperate = false ∨ s.Carries finalizer)
    (hbreak : Interrupts s request s') : FinalizerInv ctrl finalizer s' := by
  cases hbreak with
  | method _ => exact h.record hoperate fun _ _ heq ↦ by cases heq

theorem FinalizerInv.statusUpdate (h : FinalizerInv ctrl finalizer s)
    {obj : TargetObject Spec Status} {reply : Option Err}
    (hanswer : Answers ctrl s (.statusUpdate obj) reply s') : FinalizerInv ctrl finalizer s' := by
  rcases answers_statusUpdate hanswer with rfl | ⟨old, hstored, rfl⟩
  · exact h
  · refine ⟨fun hpending ↦ ?_, fun obj' hobj' hdeleted ↦ ?_, h.behaves⟩
    · rw [World.carries_store_iff]
      exact (World.carries_iff_of_stored hstored).mp (h.carries hpending)
    · rw [World.stored_store hobj'] at hdeleted
      exact h.marked old hstored hdeleted

theorem FinalizerInv.update (h : FinalizerInv ctrl finalizer s)
    {obj : TargetObject Spec Status} {reply : Option Err}
    (hkeeps : finalizer ∈ obj.finalizers ∨ pending s.history = false)
    (hanswer : Answers ctrl s (.update obj) reply s') : FinalizerInv ctrl finalizer s' := by
  rcases answers_update hanswer with rfl | ⟨old, hstored, rfl⟩
  · exact h
  · refine ⟨fun hpending ↦ ?_, fun obj' hobj' hdeleted ↦ ?_, h.behaves⟩
    · rw [World.carries_store_iff]
      rcases hkeeps with hmem | hnone
      · exact hmem
      · have hcontra : false = true := hnone.symm.trans hpending
        cases hcontra
    · rw [World.stored_store hobj'] at hdeleted
      exact h.marked old hstored hdeleted

theorem Held.method (h : Held ctrl finalizer read inst s)
    {request : ReconcileRequest Spec Status}
    {reply : (reconcileCalls Spec Status Err).Reply request} (hmethod : request.isMethod)
    (hsame : KeepsMetadata ⟨request, reply⟩ → SameMetadata inst inst')
    (hoperate : request.isOperate = false) (hanswer : Answers ctrl s request reply s') :
    Held ctrl finalizer read inst' s' := by
  have hinv := h.inv.method hmethod (.inl hoperate) hanswer
  obtain ⟨work, hbehaves, rfl⟩ := answers_method hmethod hanswer
  exact ⟨hinv, h.same.trans (hsame (ctrl.keeps hbehaves)), h.lastRead, h.carries,
    fun hdeleted ↦ List.mem_cons_of_mem _ (h.marked hdeleted)⟩

theorem held_of_read (h : FinalizerInv ctrl finalizer s) (hstored : s.stored = some read) :
    Held ctrl finalizer read read (s.record (.read read)) where
  inv := h.record (.inl rfl) fun _ _ heq ↦ by cases heq
  same := ⟨rfl, rfl⟩
  lastRead := rfl
  carries hmem := ⟨read, hstored, hmem⟩
  marked hdeleted := List.mem_cons_of_mem _ (h.marked read hstored hdeleted)

/-- After a successful cleanup of an object that is marked for deletion. -/
structure Cleaned (ctrl : Controller Spec Status Err Work) (finalizer : String)
    (s : World Spec Status Err Work) : Prop where
  inv : FinalizerInv ctrl finalizer s
  not_pending : pending s.history = false
  cleaned : CleanedSinceMarked s.history

theorem Held.cleanup (h : Held ctrl finalizer read inst s)
    (hdeleted : inst.deletionTimestamp.isSome) {result : Result}
    (hanswer : Answers ctrl s (.cleanup inst) (inst', result, none) s') :
    Cleaned ctrl finalizer s' := by
  have hinv := h.inv.method rfl (.inl rfl) hanswer
  obtain ⟨work, hbehaves, rfl⟩ := answers_method rfl hanswer
  have hmarked : .marked ∈ s.history := h.marked (h.same.deletionTimestamp ▸ hdeleted)
  obtain ⟨later, earlier, heq⟩ := List.append_of_mem hmarked
  let entry : Entry Spec Status Err Work := .called ⟨.cleanup inst, (inst', result, none)⟩ work
  exact ⟨hinv, rfl, entry :: later, earlier, congrArg (entry :: ·) heq, entry,
    List.mem_cons_self, rfl⟩

theorem World.Initial.finalizerInv (h : s.Initial) : FinalizerInv ctrl finalizer s := by
  obtain ⟨obj, hstored, hhistory⟩ := h
  refine ⟨fun hpending ↦ ?_, fun obj' hobj' hdeleted ↦ ?_, fun call work hcall ↦ ?_⟩
  · rw [hhistory] at hpending
    split at hpending <;> simp [pending, Entry.isOperate] at hpending
  · rw [hstored, Option.some.injEq] at hobj'
    subst hobj'
    simp [hhistory, hdeleted]
  · rw [hhistory] at hcall
    split at hcall <;> simp at hcall

/-! ## The reconciler keeps the invariant -/

/-- The program is safe from the given assertion and ends in the invariant. -/
abbrev Keeps {α : Type} (ctrl : Controller Spec Status Err Work) (finalizer : String)
    (P : World Spec Status Err Work → Prop) (program : Program (reconcileCalls Spec Status Err) α) :
    Prop :=
  Safe (service ctrl finalizer) (FinalizerInv ctrl finalizer) (Guarded finalizer) P program
    fun _ ↦ FinalizerInv ctrl finalizer

theorem stable_finalizerInv :
    (service ctrl finalizer).Stable (FinalizerInv ctrl finalizer) :=
  fun _ _ h hstep ↦ h.interferes hstep

theorem stable_held : (service ctrl finalizer).Stable (Held ctrl finalizer read inst) :=
  fun _ _ h hstep ↦ h.interferes hstep

theorem stable_cleaned : (service ctrl finalizer).Stable (Cleaned ctrl finalizer) :=
  fun _ _ h hstep ↦ ⟨h.inv.interferes hstep, (Interferes.pending hstep).trans h.not_pending,
    Interferes.cleanedSinceMarked hstep h.cleaned⟩

theorem keeps_done {α : Type} {value : α} :
    Keeps ctrl finalizer (FinalizerInv ctrl finalizer) (.done value) :=
  .done stable_finalizerInv fun _ h ↦ ⟨h, h⟩

theorem Keeps.of_held {α : Type} {program : Program (reconcileCalls Spec Status Err) α}
    (h : Keeps ctrl finalizer (FinalizerInv ctrl finalizer) program) :
    Keeps ctrl finalizer (Held ctrl finalizer read inst) program :=
  h.strengthen stable_held fun _ hs ↦ hs.inv

theorem keeps_statusUpdate {α : Type} {obj : TargetObject Spec Status}
    {next : Option Err → Program (reconcileCalls Spec Status Err) α}
    (hnext : ∀ reply, Keeps ctrl finalizer (FinalizerInv ctrl finalizer) (next reply)) :
    Keeps ctrl finalizer (FinalizerInv ctrl finalizer) (Call.statusUpdate obj >>= next) :=
  .call (fun _ ↦ FinalizerInv ctrl finalizer) stable_finalizerInv (fun _ h ↦ ⟨h, trivial⟩)
    (fun _ _ h ↦ h.interrupts (.inl rfl)) (fun _ _ _ h ↦ h.statusUpdate) hnext

variable {c : CompositeReconciler Spec Status Err} {oldInstance : TargetObject Spec Status}
  {result : Result} {reterr : Option Err}

theorem keeps_runInitialize :
    Keeps ctrl finalizer (Held ctrl finalizer read inst) (c.runInitialize inst) := by
  refine .call (fun reply ↦ Held ctrl finalizer read (Prod.fst reply)) stable_held ?_ ?_ ?_ ?_
  · exact fun s h ↦ ⟨h.inv, trivial⟩
  · exact fun s s' h ↦ h.inv.interrupts (.inl rfl)
  · exact fun s reply s' h ↦ h.method rfl id rfl
  · rintro ⟨(obj : TargetObject Spec Status), (initErr : Option Err)⟩
    cases initErr with
    | some err => exact keeps_done.of_held
    | none => exact (keeps_statusUpdate fun reply ↦ keeps_done).of_held

variable [ErrorValues Err]

theorem keeps_patchChanged :
    Keeps ctrl finalizer (FinalizerInv ctrl finalizer)
      (c.patchChanged oldInstance inst result reterr) := by
  unfold CompositeReconciler.patchChanged
  split
  · exact keeps_done
  · exact keeps_done
  · refine keeps_statusUpdate fun reply ↦ ?_
    cases reply <;> exact keeps_done

theorem keeps_patchStatus :
    Keeps ctrl finalizer (FinalizerInv ctrl finalizer)
      (c.patchStatus oldInstance inst result reterr) := by
  refine .call (fun _ ↦ FinalizerInv ctrl finalizer) stable_finalizerInv ?_ ?_ ?_ ?_
  · exact fun s h ↦ ⟨h, trivial⟩
  · exact fun s s' h ↦ h.interrupts (.inl rfl)
  · exact fun s reply s' h ↦ h.method rfl (.inl rfl)
  · rintro ⟨(obj : TargetObject Spec Status), (updateErr : Option Err)⟩
    cases updateErr with
    | some err => exact keeps_done
    | none => exact keeps_patchChanged

/-- `Operate` is called on an object that carries the finalizer. -/
theorem keeps_runOperate (hdeleted : inst.deletionTimestamp.isNone)
    (hfinalizer : finalizer ∈ inst.finalizers) :
    Keeps ctrl finalizer (Held ctrl finalizer read inst) (c.runOperate oldInstance inst) := by
  have hcarries {s : World Spec Status Err Work} (h : Held ctrl finalizer read inst s) :
      s.Carries finalizer := h.carries (h.same.finalizers ▸ hfinalizer)
  refine .call (fun _ ↦ FinalizerInv ctrl finalizer) stable_held ?_ ?_ ?_ ?_
  · intro s h
    refine ⟨h.inv, hcarries h, read, h.lastRead, h.same, h.same.finalizers ▸ hfinalizer, ?_⟩
    rw [← h.same.deletionTimestamp]
    exact Option.isNone_iff_eq_none.mp hdeleted
  · exact fun s s' h ↦ h.inv.interrupts (.inr (hcarries h))
  · exact fun s reply s' h ↦ h.inv.method rfl (.inr (hcarries h))
  · exact fun reply ↦ keeps_patchStatus

/-- `Reconcile` of an initialized object. -/
theorem keeps_reconcileInitialized (hstrategy : c.cleanupStrategy = .finalizerCleanup) :
    Keeps ctrl c.finalizerName (Held ctrl c.finalizerName read inst)
      (c.reconcileInitialized inst) := by
  unfold CompositeReconciler.reconcileInitialized
  simp only [hstrategy, if_true, CompositeReconciler.cleanupHandler]
  by_cases hdeleted : inst.deletionTimestamp.isNone = true <;>
    by_cases hfinalizer : c.finalizerName ∈ inst.finalizers <;>
    simp only [hdeleted, hfinalizer, if_true, if_false, not_true, not_false_eq_true]
  · exact keeps_runOperate hdeleted hfinalizer
  · have hmem := mem_addFinalizer inst c.finalizerName
    refine .call (fun _ ↦ FinalizerInv ctrl c.finalizerName) stable_held ?_ ?_ ?_ ?_
    · exact fun s h ↦ ⟨h.inv, fun hnot ↦ absurd hmem hnot⟩
    · exact fun s s' h ↦ h.inv.interrupts (.inl rfl)
    · exact fun s reply s' h ↦ h.inv.update (.inl hmem)
    · exact fun reply ↦ keeps_done
  · refine .call (fun reply s ↦ if (Prod.snd reply).2.isSome then
      FinalizerInv ctrl c.finalizerName s else Cleaned ctrl c.finalizerName s)
      stable_held ?_ ?_ ?_ ?_
    · exact fun s h ↦ ⟨h.inv, trivial⟩
    · exact fun s s' h ↦ h.inv.interrupts (.inl rfl)
    · rintro s ⟨(obj : TargetObject Spec Status), (result : Result), (reterr : Option Err)⟩ s' h
        hanswer
      cases reterr with
      | some err => exact h.inv.method rfl (.inl rfl) hanswer
      | none => exact h.cleanup (by simpa [Option.isSome_iff_ne_none] using hdeleted) hanswer
    · rintro ⟨(obj : TargetObject Spec Status), (result : Result), (reterr : Option Err)⟩
      cases reterr with
      | some err => exact keeps_patchStatus
      | none =>
        refine .call (fun _ ↦ FinalizerInv ctrl c.finalizerName) stable_cleaned ?_ ?_ ?_ ?_
        · exact fun s h ↦ ⟨h.inv, fun _ ↦ h.cleaned⟩
        · exact fun s s' h ↦ h.inv.interrupts (.inl rfl)
        · exact fun s reply s' h ↦ h.inv.update (.inr h.not_pending)
        · exact fun reply ↦ keeps_done
  · exact keeps_patchStatus.of_held

theorem keeps_reconcileValid (hstrategy : c.cleanupStrategy = .finalizerCleanup) :
    Keeps ctrl c.finalizerName (Held ctrl c.finalizerName read inst) (c.reconcileValid inst) := by
  unfold CompositeReconciler.reconcileValid
  split
  · exact keeps_done.of_held
  · exact keeps_runInitialize
  · exact keeps_reconcileInitialized hstrategy

theorem keeps_reconcileFound (hstrategy : c.cleanupStrategy = .finalizerCleanup) :
    Keeps ctrl c.finalizerName (Held ctrl c.finalizerName read read) (c.reconcileFound read) := by
  refine .call (fun reply ↦ Held ctrl c.finalizerName read reply) stable_held ?_ ?_ ?_ ?_
  · exact fun s h ↦ ⟨h.inv, trivial⟩
  · exact fun s s' h ↦ h.inv.interrupts (.inl rfl)
  · exact fun s reply s' h ↦ h.method rfl id rfl
  · intro (obj : TargetObject Spec Status)
    refine .call (fun reply ↦ Held ctrl c.finalizerName read (Prod.fst reply)) stable_held
      ?_ ?_ ?_ ?_
    · exact fun s h ↦ ⟨h.inv, trivial⟩
    · exact fun s s' h ↦ h.inv.interrupts (.inl rfl)
    · exact fun s reply s' h ↦ h.method rfl id rfl
    · rintro ⟨(inst : TargetObject Spec Status), (valErr : Option Err)⟩
      cases valErr with
      | some err => exact keeps_done.of_held
      | none => exact keeps_reconcileValid hstrategy

theorem keeps_reconcile (hstrategy : c.cleanupStrategy = .finalizerCleanup) :
    Keeps ctrl c.finalizerName (FinalizerInv ctrl c.finalizerName) c.reconcile := by
  let post : GetReply (TargetObject Spec Status) Err → World Spec Status Err Work → Prop
    | .found read => Held ctrl c.finalizerName read read
    | _ => FinalizerInv ctrl c.finalizerName
  refine .call post stable_finalizerInv ?_ ?_ ?_ ?_
  · exact fun s h ↦ ⟨h, trivial⟩
  · exact fun s s' h ↦ h.interrupts (.inl rfl)
  · intro s reply s' h hanswer
    cases hanswer with
    | found hstored => exact held_of_read h hstored
    | notFound _ => exact h
    | getFailed => exact h
    | method hmethod _ => cases hmethod
  · intro (reply : GetReply (TargetObject Spec Status) Err)
    cases reply with
    | found read => exact keeps_reconcileFound hstrategy
    | notFound => exact keeps_done
    | failed err => exact keeps_done

/-- Every run keeps the invariant and makes the calls that matter only when they are allowed. -/
theorem Reconciling.verified (hstrategy : c.cleanupStrategy = .finalizerCleanup)
    {cfg : Config (reconcileCalls Spec Status Err) (Result × Option Err)
      (World Spec Status Err Work)} (h : Reconciling c ctrl cfg) :
    Verified (service ctrl c.finalizerName) (FinalizerInv ctrl c.finalizerName)
      (Guarded c.finalizerName) cfg :=
  SerialReachable.verified stable_finalizerInv (keeps_reconcile hstrategy)
    (fun _ ↦ World.Initial.finalizerInv) h

omit [ErrorValues Err] in
theorem pending_of_not_cleaned {later earlier : List (Entry Spec Status Err Work)}
    {entry : Entry Spec Status Err Work} (hoperate : entry.isOperate)
    (hlater : ∀ e ∈ later, ¬ e.isCleaned) : pending (later ++ entry :: earlier) := by
  induction later with
  | nil => simp [pending, hoperate]
  | cons e later ih =>
    have hrest := ih fun e' he' ↦ hlater e' (List.mem_cons_of_mem _ he')
    simp [pending, hlater e List.mem_cons_self, hrest]

/-- **What was operated on is cleaned up.** In every run, of any length, of a reconciler with
the finalizer strategy, whatever the controller does, whichever writes fail, whenever the user
deletes the object and whatever else other parties change: `Operate` is called only while the
object carries the finalizer in the API, on an object that was not marked for deletion when it was
read; and once the object is gone, every call of `Operate` was followed by a cleanup that returned
a nil error. -/
theorem reconciling_protects_operations (hstrategy : c.cleanupStrategy = .finalizerCleanup)
    {cfg : Config (reconcileCalls Spec Status Err) (Result × Option Err)
      (World Spec Status Err Work)} (h : Reconciling c ctrl cfg) :
    (∀ obj next, cfg.program = some (.call (ReconcileRequest.operate obj) next) →
      cfg.state.Carries c.finalizerName ∧ ∃ read, lastRead cfg.state.history = some read ∧
        SameMetadata read obj ∧ c.finalizerName ∈ read.finalizers ∧
          read.deletionTimestamp = none) ∧
    (cfg.state.stored = none → ∀ later entry earlier,
      cfg.state.history = later ++ entry :: earlier → entry.isOperate →
        ∃ cleanup ∈ later, cleanup.isCleaned) := by
  have hverified := h.verified hstrategy
  constructor
  · intro obj next hprogram
    obtain ⟨program, s⟩ := cfg
    subst hprogram
    exact hverified.guard
  · intro hgone later entry earlier hhistory hoperate
    by_contra hnone
    push Not at hnone
    have hpending : pending cfg.state.history := hhistory ▸ pending_of_not_cleaned hoperate hnone
    obtain ⟨obj, hstored, _⟩ := hverified.inv.carries hpending
    rw [hgone] at hstored
    cases hstored

/-- A controller whose methods may reply anything and leave the metadata alone. -/
def quietController : Controller Unit (List String) GoError Unit where
  Behaves call _ := KeepsMetadata call
  keeps h := h

/-- The object is operated on once. -/
def operatedHistory : List (Entry Unit (List String) GoError Unit) :=
  [.called ⟨.updateStatus webapp, (webapp, none)⟩ (),
    .called ⟨.operate webapp, (webapp, {}, none)⟩ (),
    .called ⟨.validate webapp, (webapp, none)⟩ (), .called ⟨.default webapp, webapp⟩ (),
    .read webapp]

/-- Then it is deleted and cleaned up. -/
def cleanedHistory : List (Entry Unit (List String) GoError Unit) :=
  [.called ⟨.cleanup deletedWebapp, (deletedWebapp, {}, none)⟩ (),
    .called ⟨.validate deletedWebapp, (deletedWebapp, none)⟩ (),
    .called ⟨.default deletedWebapp, deletedWebapp⟩ (), .read deletedWebapp, .marked]

theorem reconciling_webapp_operated :
    Reconciling webappReconciler quietController ⟨none, ⟨some webapp, operatedHistory⟩⟩ := by
  have hruns : Program.Runs webappReconciler.reconcile [⟨.get, GetReply.found webapp⟩,
      ⟨.default webapp, webapp⟩, ⟨.validate webapp, (webapp, none)⟩,
      ⟨.operate webapp, (webapp, {}, none)⟩, ⟨.updateStatus webapp, (webapp, none)⟩] ({}, none) :=
    (ReconcileRun.body rfl (.operated (fun _ ↦ ⟨rfl, by decide⟩) (.unchanged rfl))).runs
  refine SerialReachable.complete hruns ?_
    (SerialReachable.step ⟨⟨some webapp, []⟩, ⟨webapp, rfl, rfl⟩, .refl⟩ .start)
  exact .cons (.found rfl) (.cons (.method rfl ⟨rfl, rfl⟩) (.cons (.method rfl ⟨rfl, rfl⟩)
    (.cons (.method rfl ⟨rfl, rfl⟩) (.cons (.method rfl ⟨rfl, rfl⟩) .nil))))

theorem reconciling_webapp_gone :
    Reconciling webappReconciler quietController
      ⟨none, ⟨none, cleanedHistory ++ operatedHistory⟩⟩ := by
  have hdeleted : Interferes "webapp-controller" ⟨some webapp, operatedHistory⟩
      ⟨some deletedWebapp, .marked :: operatedHistory⟩ :=
    @Interferes.deleted _ _ _ _ _ ⟨some webapp, operatedHistory⟩ webapp 0 rfl rfl
  have hruns : Program.Runs webappReconciler.reconcile [⟨.get, GetReply.found deletedWebapp⟩,
      ⟨.default deletedWebapp, deletedWebapp⟩, ⟨.validate deletedWebapp, (deletedWebapp, none)⟩,
      ⟨.cleanup deletedWebapp, (deletedWebapp, {}, none)⟩,
      ⟨.update (removeFinalizer deletedWebapp "webapp-controller"), none⟩] ({}, none) :=
    (ReconcileRun.body rfl (.cleanedUp rfl (by decide) (by decide))).runs
  refine SerialReachable.complete hruns ?_
    ((reconciling_webapp_operated.step (.environment hdeleted)).step .start)
  exact .cons (.found rfl) (.cons (.method rfl ⟨rfl, rfl⟩) (.cons (.method rfl ⟨rfl, rfl⟩)
    (.cons (.method rfl ⟨rfl, rfl⟩)
      (.cons (@Answers.updated _ _ _ _ _ _ deletedWebapp _ _ rfl rfl) .nil))))

/-- The operation on the object that is gone was followed by a cleanup. -/
theorem reconciling_protects_webapp :
    Reconciling webappReconciler quietController
        ⟨none, ⟨none, cleanedHistory ++ operatedHistory⟩⟩ ∧
      ∃ cleanup ∈ cleanedHistory ++ operatedHistory.take 1, cleanup.isCleaned :=
  ⟨reconciling_webapp_gone, (reconciling_protects_operations rfl reconciling_webapp_gone).2 rfl
    _ (.called ⟨.operate webapp, (webapp, {}, none)⟩ ()) (operatedHistory.drop 2) rfl rfl⟩

end OperatorToolkit.Composite
