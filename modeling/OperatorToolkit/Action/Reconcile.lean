import OperatorToolkit.Action.RunAction
import OperatorToolkit.Interaction.Threads

/-!
# Reconciling with actions

`Reconcile` of the stateless-action controller gets the object of the request, asks the controller
whether an action is required, and has `RunActionManager` build an action manager for the object,
list what the action is to be run on, and start a goroutine with `RunAction` for each item of the
list. The methods of the controller are calls, and so is the `go` statement. A manager is known by
what `BuildActionManager` returned.
-/

namespace OperatorToolkit.Action

open Interaction

/-- The types of keys, objects, action managers and the items that actions are run on. -/
structure ActionTypes where
  Key : Type
  Obj : Type
  Manager : Type
  Item : Type

inductive ControllerRequest (t : ActionTypes) where
  | getObject (key : t.Key)
  | requireAction (obj : t.Obj)
  | buildActionManager (obj : t.Obj)
  | getObjects (actmgr : t.Manager)
  /-- `go RunAction(actmgr, o)`. -/
  | goRunAction (actmgr : t.Manager) (o : t.Item)

/-- A nil object is `none`. -/
def controllerCalls (t : ActionTypes) (Err : Type) : Signature where
  Request := ControllerRequest t
  Reply
    | .getObject _ => GetReply (Option t.Obj) Err
    | .requireAction _ => Except Err Bool
    | .buildActionManager _ => Except Err t.Manager
    | .getObjects _ => Except Err (List t.Item)
    | .goRunAction _ _ => Unit

variable {t : ActionTypes} {Err : Type}

namespace Controller

def getObject (key : t.Key) : Program (controllerCalls t Err) (GetReply (Option t.Obj) Err) :=
  Program.request (S := controllerCalls t Err) (.getObject key)

def requireAction (obj : t.Obj) : Program (controllerCalls t Err) (Except Err Bool) :=
  Program.request (S := controllerCalls t Err) (.requireAction obj)

def buildActionManager (obj : t.Obj) : Program (controllerCalls t Err) (Except Err t.Manager) :=
  Program.request (S := controllerCalls t Err) (.buildActionManager obj)

def getObjects (actmgr : t.Manager) :
    Program (controllerCalls t Err) (Except Err (List t.Item)) :=
  Program.request (S := controllerCalls t Err) (.getObjects actmgr)

def goRunAction (actmgr : t.Manager) (o : t.Item) : Program (controllerCalls t Err) Unit :=
  Program.request (S := controllerCalls t Err) (.goRunAction actmgr o)

end Controller

def buildText : String := "failed to build action manager"

def getObjectsText : String := "failed to get objects from action manager"

/-- The loop that starts the goroutines. -/
def startActions (actmgr : t.Manager) : List t.Item → Program (controllerCalls t Err) Unit
  | [] => return ()
  | o :: objects => do
    Controller.goRunAction actmgr o
    startActions actmgr objects

/-- `RunActionManager`. -/
def runActionManager [ErrorValues Err] (o : t.Obj) :
    Program (controllerCalls t Err) (Option Err) := do
  match ← Controller.buildActionManager o with
  | .error err => return some (wrap buildText err)
  | .ok actmgr =>
    match ← Controller.getObjects actmgr with
    | .error err => return some (wrap getObjectsText err)
    | .ok objects =>
      startActions actmgr objects
      return none

/-- `Reconcile`. -/
def reconcile [ErrorValues Err] (key : t.Key) :
    Program (controllerCalls t Err) (Result × Option Err) := do
  match ← Controller.getObject key with
  | .notFound => return ({}, none)
  | .failed err => return ({}, some err)
  | .found none => return ({}, none)
  | .found (some obj) =>
    match ← Controller.requireAction obj with
    | .error err => return ({}, some err)
    | .ok requireAction =>
      if requireAction then
        let err ← runActionManager obj
        return ({}, err)
      else
        return ({}, none)

/-! ## What a reconciliation starts -/

/-- The goroutine that a call has started. -/
def started : (controllerCalls t Err).Call → Option (t.Manager × t.Item)
  | ⟨.goRunAction actmgr o, _⟩ => some (actmgr, o)
  | _ => none

/-- The items that a call has listed, with their manager. -/
def listed : (controllerCalls t Err).Call → List (t.Manager × t.Item)
  | ⟨.getObjects actmgr, .ok objects⟩ => objects.map (Prod.mk actmgr)
  | _ => []

/-- The goroutines of a reconciliation are started for the items that it has listed, in their order
and each once, and the manager of an item was built for an object that satisfies the property. A
reconciliation that has ended has started all of them. -/
structure StartsListed (calls : List (controllerCalls t Err).Call) (Required : t.Obj → Prop)
    (ended : Prop) : Prop where
  in_order : calls.filterMap started <+: calls.flatMap listed
  required : ∀ mo ∈ calls.flatMap listed, ∃ obj, Required obj ∧
    ⟨.buildActionManager obj, .ok mo.1⟩ ∈ calls
  all : ended → calls.filterMap started = calls.flatMap listed

/-- A call that starts and lists nothing. -/
theorem StartsListed.cons {calls : List (controllerCalls t Err).Call} {Required : t.Obj → Prop}
    {ended : Prop} (h : StartsListed calls Required ended) {call : (controllerCalls t Err).Call}
    (hstarted : started call = none) (hlisted : listed call = []) :
    StartsListed (call :: calls) Required ended := by
  have hfilter : (call :: calls).filterMap started = calls.filterMap started := by
    rw [List.filterMap_cons, hstarted]
  have hflat : (call :: calls).flatMap listed = calls.flatMap listed := by
    rw [List.flatMap_cons, hlisted, List.nil_append]
  refine ⟨?_, ?_, ?_⟩
  · rw [hfilter, hflat]
    exact h.in_order
  · rw [hflat]
    intro mo hmo
    obtain ⟨obj, hobj, hbuild⟩ := h.required mo hmo
    exact ⟨obj, hobj, List.mem_cons_of_mem _ hbuild⟩
  · rw [hfilter, hflat]
    exact h.all

theorem startsListed_nil {Required : t.Obj → Prop} {ended : Prop} :
    StartsListed ([] : List (controllerCalls t Err).Call) Required ended :=
  ⟨List.prefix_rfl, nofun, fun _ ↦ rfl⟩

theorem startActions_leads {actmgr : t.Manager} {objects : List t.Item}
    {calls : List (controllerCalls t Err).Call} {rest : Program (controllerCalls t Err) Unit}
    (h : Leads (startActions actmgr objects) calls rest) :
    calls.filterMap started <+: objects.map (Prod.mk actmgr) ∧ calls.flatMap listed = [] ∧
      ∀ value, rest = .done value → calls.filterMap started = objects.map (Prod.mk actmgr) := by
  induction objects generalizing calls with
  | nil =>
    obtain ⟨rfl, rfl⟩ := leads_done_iff.mp h
    exact ⟨List.prefix_rfl, rfl, fun _ _ ↦ rfl⟩
  | cons o objects ih =>
    rcases leads_call_iff.mp h with ⟨rfl, rfl⟩ | ⟨reply, calls', rfl, hnext⟩
    · refine ⟨?_, rfl, nofun⟩
      exact List.nil_prefix
    · obtain ⟨hstarted, hlisted, hall⟩ := ih hnext
      refine ⟨List.cons_prefix_cons.mpr ⟨rfl, hstarted⟩, hlisted, fun value hvalue ↦ ?_⟩
      exact congrArg (List.cons (actmgr, o)) (hall value hvalue)

variable [ErrorValues Err]

theorem runActionManager_leads {obj : t.Obj} {calls : List (controllerCalls t Err).Call}
    {rest : Program (controllerCalls t Err) (Option Err)}
    (h : Leads (runActionManager obj) calls rest) :
    StartsListed calls (· = obj) (∃ value, rest = .done value) := by
  rcases leads_call_iff.mp h with ⟨rfl, rfl⟩ | ⟨built, calls, rfl, hbuilt⟩
  · exact startsListed_nil
  cases built with
  | error err =>
    obtain ⟨rfl, rfl⟩ := leads_done_iff.mp hbuilt
    exact startsListed_nil.cons rfl rfl
  | ok actmgr =>
    rcases leads_call_iff.mp hbuilt with ⟨rfl, rfl⟩ | ⟨objects, calls, rfl, hobjects⟩
    · exact startsListed_nil.cons rfl rfl
    cases objects with
    | error err =>
      obtain ⟨rfl, rfl⟩ := leads_done_iff.mp hobjects
      exact (startsListed_nil.cons rfl rfl).cons rfl rfl
    | ok objects =>
      obtain ⟨rest', hleads, hended⟩ := leads_bind_done hobjects
      obtain ⟨hstarted, hlisted, hall⟩ := startActions_leads hleads
      have hcalls : (⟨.buildActionManager obj, .ok actmgr⟩ :: ⟨.getObjects actmgr, .ok objects⟩ ::
          calls : List (controllerCalls t Err).Call).flatMap listed =
            objects.map (Prod.mk actmgr) := by
        rw [List.flatMap_cons, List.flatMap_cons, hlisted, List.append_nil]
        rfl
      refine ⟨hcalls ▸ hstarted, fun mo hmo ↦ ⟨obj, rfl, ?_⟩, fun hrest ↦ ?_⟩
      · rw [hcalls] at hmo
        obtain ⟨o, -, rfl⟩ := List.mem_map.mp hmo
        exact List.mem_cons_self
      · obtain ⟨value, hvalue⟩ := hended hrest
        exact (hall value hvalue).trans hcalls.symm

theorem reconcile_leads {key : t.Key} {calls : List (controllerCalls t Err).Call}
    {rest : Program (controllerCalls t Err) (Result × Option Err)}
    (h : Leads (reconcile key) calls rest) :
    StartsListed calls (fun obj ↦ ⟨.requireAction obj, .ok true⟩ ∈ calls)
      (∃ value, rest = .done value) := by
  rcases leads_call_iff.mp h with ⟨rfl, rfl⟩ | ⟨got, calls, rfl, hgot⟩
  · exact startsListed_nil
  rcases got with (_ | obj) | _ | err
  · obtain ⟨rfl, rfl⟩ := leads_done_iff.mp hgot
    exact startsListed_nil.cons rfl rfl
  · rcases leads_call_iff.mp hgot with ⟨rfl, rfl⟩ | ⟨required, calls, rfl, hrequired⟩
    · exact startsListed_nil.cons rfl rfl
    rcases required with err | _ | _
    · obtain ⟨rfl, rfl⟩ := leads_done_iff.mp hrequired
      exact (startsListed_nil.cons rfl rfl).cons rfl rfl
    · obtain ⟨rfl, rfl⟩ := leads_done_iff.mp hrequired
      exact (startsListed_nil.cons rfl rfl).cons rfl rfl
    · obtain ⟨rest', hleads, hended⟩ := leads_bind_done hrequired
      have hmanager := runActionManager_leads hleads
      refine StartsListed.cons (.cons ⟨hmanager.in_order, fun mo hmo ↦ ?_, fun hrest ↦ ?_⟩ rfl rfl)
        rfl rfl
      · obtain ⟨_, rfl, hbuild⟩ := hmanager.required mo hmo
        exact ⟨_, List.mem_cons_of_mem _ List.mem_cons_self, hbuild⟩
      · exact hmanager.all (hended hrest)
  · obtain ⟨rfl, rfl⟩ := leads_done_iff.mp hgot
    exact startsListed_nil.cons rfl rfl
  · obtain ⟨rfl, rfl⟩ := leads_done_iff.mp hgot
    exact startsListed_nil.cons rfl rfl

end OperatorToolkit.Action
