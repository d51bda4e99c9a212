import OperatorToolkit.Interaction.Pool

/-!
# Programs over different calls

Programs of different kinds can share a state although their calls have nothing in common. Over the
sum of their signatures they become members of one pool. What has been verified of a program over
its own calls holds of it there as well.
-/

namespace OperatorToolkit.Interaction

/-- The calls of either of two signatures. -/
def Signature.sum (S T : Signature) : Signature where
  Request := S.Request ⊕ T.Request
  Reply
    | .inl request => S.Reply request
    | .inr request => T.Reply request

variable {S T : Signature} {α β σ : Type}

namespace Program

def inl : Program S α → Program (S.sum T) α
  | .done value => .done value
  | .call request next => .call (S := S.sum T) (.inl request) fun reply ↦ (next reply).inl

def inr : Program T α → Program (S.sum T) α
  | .done value => .done value
  | .call request next => .call (S := S.sum T) (.inr request) fun reply ↦ (next reply).inr

/-- The program with its calls made as calls of another signature. -/
def along (f : S.Request → T.Request) (reply : ∀ request, T.Reply (f request) → S.Reply request) :
    Program S α → Program T α
  | .done value => .done value
  | .call request next => .call (f request) fun answer ↦ (next (reply request answer)).along f reply

/-- The program with another value to return. -/
def map (f : α → β) : Program S α → Program S β
  | .done value => .done (f value)
  | .call request next => .call request fun reply ↦ (next reply).map f

end Program

/-- Each service answers its own calls, and other parties do what is given. -/
def Service.sum (left : Service S σ) (right : Service T σ) (rely : σ → σ → Prop) :
    Service (S.sum T) σ where
  Handles s request reply s' := match request, reply with
    | .inl request, reply => left.Handles s request reply s'
    | .inr request, reply => right.Handles s request reply s'
  Breaks s request s' := match request with
    | .inl request => left.Breaks s request s'
    | .inr request => right.Breaks s request s'
  Rely := rely

section Safety

variable {left : Service S σ} {right : Service T σ} {rely : σ → σ → Prop} {Inv : σ → Prop}
  {GuardL : σ → S.Request → Prop} {GuardR : σ → T.Request → Prop} {P : σ → Prop}

theorem Safe.inl {program : Program S α} {Q : α → σ → Prop}
    (h : Safe { left with Rely := rely } Inv GuardL P program Q) :
    Safe (left.sum right rely) Inv (fun s ↦ Sum.elim (GuardL s) (GuardR s)) P
      (program.inl (T := T)) Q := by
  induction h with
  | done hstable hpost => exact .done hstable hpost
  | call post hstable hguard hbreaks hpost _ ih =>
    exact .call (S := S.sum T) post hstable hguard hbreaks hpost ih

theorem Safe.inr {program : Program T α} {Q : α → σ → Prop}
    (h : Safe { right with Rely := rely } Inv GuardR P program Q) :
    Safe (left.sum right rely) Inv (fun s ↦ Sum.elim (GuardL s) (GuardR s)) P
      (program.inr (S := S)) Q := by
  induction h with
  | done hstable hpost => exact .done hstable hpost
  | call post hstable hguard hbreaks hpost _ ih =>
    exact .call (S := S.sum T) post hstable hguard hbreaks hpost ih

theorem Safe.map {svc : Service S σ} {Guard : σ → S.Request → Prop} {program : Program S α}
    {Q : β → σ → Prop} {f : α → β}
    (h : Safe svc Inv Guard P program fun value ↦ Q (f value)) :
    Safe svc Inv Guard P (program.map f) Q := by
  generalize hQ : (fun value ↦ Q (f value)) = Q' at h
  induction h with
  | done hstable hpost =>
    subst hQ
    exact .done hstable hpost
  | call post hstable hguard hbreaks hpost _ ih =>
    exact .call post hstable hguard hbreaks hpost fun reply ↦ ih reply hQ

end Safety

end OperatorToolkit.Interaction
