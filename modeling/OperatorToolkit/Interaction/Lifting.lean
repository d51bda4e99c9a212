import OperatorToolkit.Interaction.Serial

/-!
# Verifying a program in parts

A program that is safe over a part of the state is safe over the whole of it. What has been
established about a program in two separate proofs, about different parts or from different
assertions, holds of it together.
-/

namespace OperatorToolkit.Interaction

variable {S : Signature} {α σ τ : Type}

theorem Safe.comap {svc : Service S σ} {svc' : Service S τ} (f : τ → σ)
    (hrely : ∀ t t', svc'.Rely t t' → svc.Rely (f t) (f t'))
    (hbreaks : ∀ t request t', svc'.Breaks t request t' → svc.Breaks (f t) request (f t'))
    (hhandles : ∀ t request reply t', svc'.Handles t request reply t' →
      svc.Handles (f t) request reply (f t'))
    {Inv : σ → Prop} {Guard : σ → S.Request → Prop} {P : σ → Prop} {program : Program S α}
    {Q : α → σ → Prop} (h : Safe svc Inv Guard P program Q) :
    Safe svc' (fun t ↦ Inv (f t)) (fun t ↦ Guard (f t)) (fun t ↦ P (f t)) program
      fun value t ↦ Q value (f t) := by
  have hstable {P : σ → Prop} (hP : svc.Stable P) : svc'.Stable fun t ↦ P (f t) :=
    fun t t' ht htt' ↦ hP (f t) (f t') ht (hrely t t' htt')
  induction h with
  | done hP hpost => exact .done (hstable hP) fun t ht ↦ hpost (f t) ht
  | call post hP hguard hbreak hpost _ ih =>
    refine .call (fun reply t ↦ post reply (f t)) (hstable hP) ?_ ?_ ?_ ih
    · exact fun t ht ↦ hguard (f t) ht
    · exact fun t t' ht htt' ↦ hbreak (f t) (f t') ht (hbreaks t _ t' htt')
    · exact fun t reply t' ht htt' ↦ hpost (f t) reply (f t') ht (hhandles t _ reply t' htt')

theorem Safe.both {svc : Service S σ} {Inv₁ Inv₂ Inv : σ → Prop}
    {Guard₁ Guard₂ Guard : σ → S.Request → Prop} (hinv : ∀ s, Inv₁ s → Inv₂ s → Inv s)
    (hguard : ∀ s request, Guard₁ s request → Guard₂ s request → Guard s request)
    {P₁ P₂ : σ → Prop} {program : Program S α} {Q₁ Q₂ : α → σ → Prop}
    (h₁ : Safe svc Inv₁ Guard₁ P₁ program Q₁) (h₂ : Safe svc Inv₂ Guard₂ P₂ program Q₂) :
    Safe svc Inv Guard (fun s ↦ P₁ s ∧ P₂ s) program fun value s ↦ Q₁ value s ∧ Q₂ value s := by
  have hstable {P₁ P₂ : σ → Prop} (h₁ : svc.Stable P₁) (h₂ : svc.Stable P₂) :
      svc.Stable fun s ↦ P₁ s ∧ P₂ s :=
    fun s s' hs hss' ↦ ⟨h₁ s s' hs.1 hss', h₂ s s' hs.2 hss'⟩
  induction h₁ generalizing P₂ with
  | done hP₁ hpost₁ =>
    cases h₂ with
    | done hP₂ hpost₂ =>
      refine .done (hstable hP₁ hP₂) fun s hs ↦ ?_
      have hleft := hpost₁ s hs.1
      have hright := hpost₂ s hs.2
      exact ⟨hinv s hleft.1 hright.1, hleft.2, hright.2⟩
  | call post₁ hP₁ hguard₁ hbreak₁ hpost₁ _ ih =>
    cases h₂ with
    | call post₂ hP₂ hguard₂ hbreak₂ hpost₂ hnext₂ =>
      refine .call (fun reply s ↦ post₁ reply s ∧ post₂ reply s) (hstable hP₁ hP₂) ?_ ?_ ?_
        fun reply ↦ ih reply (hnext₂ reply)
      · intro s hs
        have hleft := hguard₁ s hs.1
        have hright := hguard₂ s hs.2
        exact ⟨hinv s hleft.1 hright.1, hguard s _ hleft.2 hright.2⟩
      · exact fun s s' hs hss' ↦ hinv s' (hbreak₁ s s' hs.1 hss') (hbreak₂ s s' hs.2 hss')
      · exact fun s reply s' hs hss' ↦
          ⟨hpost₁ s reply s' hs.1 hss', hpost₂ s reply s' hs.2 hss'⟩

end OperatorToolkit.Interaction
