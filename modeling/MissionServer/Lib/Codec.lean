import Mathlib.Data.List.Basic

/-!
# Codecs

An encoder and a decoder that undo each other: what was encoded is read back, and what is accepted is what
the encoder writes. Codecs compose, so a frame format is the composition of its layers.
-/

/-- A decoder that is exact for its encoder. -/
structure Codec (α β : Type*) where
  encode : α → β
  decode : β → Option α
  decode_encode : ∀ a, decode (encode a) = some a
  encode_decode : ∀ b a, decode b = some a → encode a = b

namespace Codec

variable {α β γ : Type*}

/-- The inner layer first. -/
def trans (c : Codec α β) (d : Codec β γ) : Codec α γ where
  encode a := d.encode (c.encode a)
  decode x := (d.decode x).bind c.decode
  decode_encode a := by rw [d.decode_encode, Option.bind_some, c.decode_encode]
  encode_decode x a h := by
    obtain ⟨b, hb, ha⟩ := Option.bind_eq_some_iff.mp h
    rw [c.encode_decode b a ha, d.encode_decode x b hb]

section Seal

variable [DecidableEq α] (check : List α → List α) (n : Nat)

/-- The message without its last `n` elements, where these are its checksum. -/
def opened (message : List α) : Option (List α) :=
  let body := message.take (message.length - n)
  if message.drop (message.length - n) = check body then some body else none

/-- Messages followed by a checksum of `n` elements. -/
def sealed (hcheck : ∀ body, (check body).length = n) : Codec (List α) (List α) where
  encode body := body ++ check body
  decode := opened check n
  decode_encode body := by
    have hlen : (body ++ check body).length - n = body.length := by
      rw [List.length_append, hcheck, Nat.add_sub_cancel]
    simp only [opened, hlen, List.take_left, List.drop_left, if_true]
  encode_decode message body h := by
    simp only [opened] at h
    split at h
    case isTrue hsum =>
      rw [← Option.some.inj h, ← hsum, List.take_append_drop]
    case isFalse => exact absurd h (by simp)

end Seal

end Codec
