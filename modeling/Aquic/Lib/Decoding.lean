import Mathlib.Data.List.Infix

/-!
# Reading a stream

A format says what a stream of units means: a list of items, to which more items may come when more of the
stream is there. A decoder is given the stream piece by piece, and makes one item after the other.

`Reads dec input output` relates a decoder to what it was given and to what it has made of it. It is all
that is known about a decoder.
-/

namespace Aquic.Decoding

structure Format (β ι : Type) where
  parse : List β → List ι
  mono : ∀ {input input' : List β}, input <+: input' → parse input <+: parse input'

variable {β ι δ ε : Type} {F : Format β ι} {Reads : δ → List β → List ι → Prop}

/-- The decoder makes what the format says. -/
structure Lawful (F : Format β ι) (decode : δ → δ × Except ε (Option ι))
    (Reads : δ → List β → List ι → Prop) : Prop where
  sound : ∀ {dec input output}, Reads dec input output → output <+: F.parse input
  nothing : ∀ {dec dec' input output}, Reads dec input output → decode dec = (dec', .ok none) →
    Reads dec' input output
  item : ∀ {dec dec' input output it}, Reads dec input output → decode dec = (dec', .ok (some it)) →
    Reads dec' input (output ++ [it])

/-- What the decoder was given is the beginning of the stream. -/
def Within (Reads : δ → List β → List ι → Prop) (stream : List β) (dec : δ) (output : List ι) : Prop :=
  ∃ input, Reads dec input output ∧ input <+: stream

/-- The decoder `dec`, which has made `output`, was given more of the stream, and is `dec'` now. -/
def Fed (Reads : δ → List β → List ι → Prop) (stream : List β) (output : List ι) (dec dec' : δ) : Prop :=
  Within Reads stream dec output → Within Reads stream dec' output

/-- An encoder writes what the format means. -/
def Writes (F : Format β ι) (encode : List ι → List β) : Prop :=
  ∀ items, F.parse (encode items) <+: items

variable {stream : List β} {dec dec' : δ} {output : List ι} {decode : δ → δ × Except ε (Option ι)}

theorem Within.isPrefix (h : Within Reads stream dec output) (hlaw : Lawful F decode Reads) :
    output <+: F.parse stream := by
  obtain ⟨input, hreads, hinput⟩ := h
  exact (hlaw.sound hreads).trans (F.mono hinput)

theorem Within.nothing (h : Within Reads stream dec output) (hlaw : Lawful F decode Reads)
    (hdecode : decode dec = (dec', .ok none)) : Within Reads stream dec' output := by
  obtain ⟨input, hreads, hinput⟩ := h
  exact ⟨input, hlaw.nothing hreads hdecode, hinput⟩

theorem Within.item (h : Within Reads stream dec output) (hlaw : Lawful F decode Reads) {it : ι}
    (hdecode : decode dec = (dec', .ok (some it))) : Within Reads stream dec' (output ++ [it]) := by
  obtain ⟨input, hreads, hinput⟩ := h
  exact ⟨input, hlaw.item hreads hdecode, hinput⟩

/-- What is read from the beginning of what was written. -/
theorem Writes.isPrefix {encode : List ι → List β} {items : List ι} (h : Writes F encode)
    (hstream : stream <+: encode items) : F.parse stream <+: items :=
  (F.mono hstream).trans (h items)

end Aquic.Decoding
