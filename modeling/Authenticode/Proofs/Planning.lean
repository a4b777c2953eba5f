import Authenticode.Proofs.Draft
import Authenticode.Proofs.SignedImage.Space

/-!
# Planning ahead of a signature

An image is extended before the signature that goes into it can be made, since that
signature is about the extended image. Here the two sides of the plan are put together: a
draft is no shorter than what is made in its stead, and space for the draft is space for
everything that is no longer.
-/
namespace Authenticode.SignedImage

open Cms (Signature Signer)
open Pe (Image)

variable {data : Bytes} {x y : Image}

/-- Planning for a signature is always enough. A table that could be grown by what a signature needs
takes every signature that is no longer, at each index. A draft is no shorter than the signature,
whatever digest it is about, whenever it is made, and whatever value of the key's size or less it
gets; for a value from outside the two are equally long. So a table that was grown for the draft
takes the signature that is made in its stead. -/
theorem space_suffices (hx : Image.parse data = .ok x)
    (hy : y = x ∨ ∃ w, Image.clearTable x = .ok w y) (list : List Signature) (who : Signer)
    (now : Int) :
    (∀ extra s amount z, missingSpace ⟨y, list⟩ extra = .ok amount →
      Image.growTable amount y = .ok () z → s.length ≤ extra.length →
        checkSpace ⟨z, list⟩ s = .ok () ∧
          ∀ k : Nat, k ≤ list.length → ∃ t, insert k s ⟨z, list⟩ = .ok () t) ∧
    (∀ draft d draws s, who.draft none = .ok draft →
      Signer.generate { who with now } d draws = .ok s → s.length ≤ draft.length) ∧
    (∀ draft d s key attributes value, who.draft none = .ok draft →
      who.identity.signingKey = .ok key → d.algorithm = who.algorithm →
      Cms.SignedAttributes.ofContent (Cms.IndirectData.encode d) who.algorithm now
        = .ok attributes →
      value.length ≤ key.signatureSize →
      who.assemble (Cms.IndirectData.encode d) attributes value = .ok s →
      s.length ≤ draft.length) ∧
    (∀ raw d s, Signer.wrap { who with now } d raw = .ok s →
      ∃ draft, who.draft (some raw) = .ok draft ∧ draft.length = s.length) ∧
    (∀ raw d draws s amount z, spaceNeeded ⟨y, list⟩ who raw = .ok amount →
      Image.growTable amount y = .ok () z →
        (match raw with
          | none => Signer.generate { who with now } d draws = .ok s
          | some r => Signer.wrap { who with now } d r = .ok s) →
        checkSpace ⟨z, list⟩ s = .ok () ∧
          ∀ k : Nat, k ≤ list.length → ∃ t, insert k s ⟨z, list⟩ = .ok () t) := by
  have hin : ∀ d, y.directory = .ok d → d.isEmpty = false → d.stop ≤ y.length :=
    fun d hd => stop_le_of_parse hx hy hd
  have hwrapped : ∀ raw d s, Signer.wrap { who with now } d raw = .ok s →
      ∃ draft, who.draft (some raw) = .ok draft ∧ draft.length = s.length :=
    fun raw d s h => Signer.exists_draft_of_wrap h
  refine ⟨fun extra s amount z hspace hgrow hle => checkSpace_of_growTable hin hspace hgrow hle,
    fun draft d draws s hdraft h => Signer.length_le_draft_of_generate hdraft h,
    fun draft d s key attributes value hdraft hsigning halgorithm hattributes hvalue h =>
      Signer.length_le_draft hdraft hsigning halgorithm hattributes hvalue h,
    hwrapped, ?_⟩
  intro raw d draws s amount z hneeded hgrow hmade
  obtain ⟨draft, hdraft, hspace⟩ := Except.bind_eq_ok_iff.1 hneeded
  refine checkSpace_of_growTable hin hspace hgrow ?_
  cases raw with
  | none => exact Signer.length_le_draft_of_generate hdraft hmade
  | some r =>
    obtain ⟨draft', hdraft', hlength⟩ := hwrapped r d s hmade
    cases hdraft.symm.trans hdraft'
    exact hlength.ge

/-- Space is made for a signature at one time, and it is made and put in a day later. -/
theorem space_suffices_least :
    let x := Image.least .none [] [7]
    let who : Signer := ⟨.sha256, Cms.SigningIdentity.least, 0⟩
    ∃ z s t, spaceNeeded ⟨x, []⟩ who none = .ok 592 ∧ Image.growTable 592 x = .ok () z ∧
      Signer.generate { who with now := 86400 } (Digest.zero .sha256) = .ok s ∧
      insert 0 s ⟨z, []⟩ = .ok () t := by
  intro x who
  have hx : Image.parse x.bytes = .ok x := by decide +kernel
  have hneeded : spaceNeeded ⟨x, []⟩ who none = .ok 592 := by decide +kernel
  have hgrow : Image.growTable 592 x = .ok () (Step.stateOf (Image.growTable 592 x)) :=
    Step.eq_ok_of_isOk (by decide +kernel)
  have hmade : (Signer.generate { who with now := 86400 } (Digest.zero .sha256)).isOk = true := by
    decide +kernel
  cases hs : Signer.generate { who with now := 86400 } (Digest.zero .sha256) with
  | error f =>
    rw [hs] at hmade
    cases hmade
  | ok s =>
    obtain ⟨-, -, -, -, hplanned⟩ := space_suffices hx (.inl rfl) [] who 86400
    obtain ⟨-, hinserts⟩ := hplanned none _ _ s _ _ hneeded hgrow hs
    obtain ⟨t, ht⟩ := hinserts 0 le_rfl
    exact ⟨_, s, t, hneeded, hgrow, rfl, ht⟩

end Authenticode.SignedImage
