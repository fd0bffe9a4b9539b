import AutoTune.Recipe.TwoReaders
import Mathlib.Data.List.Chain

/-!
# An `extraArgs` list in pieces

A list falls apart into flags, each with the items it is spelled with, and stray items no flag takes. What
a piece is depends on its own items only, except that a bare switch must not be followed by a stray item:
it would take it for its value. Pieces that keep to this are read again as they were.
-/

namespace AutoTune

open Lib

section Pieces

variable {F : Type} [PyRuntime F]

/-- Does an item begin like a flag? -/
def isFlagItem (item : Json F) : Bool := startsWith item.text "--"

/-- Does an item hold a character? -/
def itemHas (item : Json F) (c : Char) : Bool := hasChar item.text c

/-! ## Pieces -/

/-- A flag in one of its four spellings, or an item that belongs to no flag. -/
inductive ArgPiece (F : Type) [PyRuntime F] where
  | eq (item : Json F) (isFlag : isFlagItem item = true) (hasEq : itemHas item '=' = true)
  | space (item : Json F) (isFlag : isFlagItem item = true) (noEq : itemHas item '=' = false)
      (hasBlank : itemHas item ' ' = true)
  | pair (item value : Json F) (isFlag : isFlagItem item = true) (noEq : itemHas item '=' = false)
      (noBlank : itemHas item ' ' = false) (isValue : isFlagItem value = false)
  | switch (item : Json F) (isFlag : isFlagItem item = true) (noEq : itemHas item '=' = false)
      (noBlank : itemHas item ' ' = false)
  | stray (item : Json F) (notFlag : isFlagItem item = false)

/-- The items a piece is made of. -/
def ArgPiece.items : ArgPiece F → List (Json F)
  | .eq item _ _ => [item]
  | .space item _ _ _ => [item]
  | .pair item value _ _ _ _ => [item, value]
  | .switch item _ _ _ => [item]
  | .stray item _ => [item]

/-- The flag a piece is, at a place in the list. -/
def ArgPiece.arg (i : Nat) : ArgPiece F → Option Arg
  | .eq item _ _ => some ⟨i, 1, (partitionAt '=' item.text).1, some (partitionAt '=' item.text).2, .eq⟩
  | .space item _ _ _ =>
      some ⟨i, 1, (partitionAt ' ' item.text).1, some (strip (partitionAt ' ' item.text).2), .space⟩
  | .pair item value _ _ _ _ => some ⟨i, 2, item.text, some value.text, .pair⟩
  | .switch item _ _ _ => some ⟨i, 1, item.text, none, .switch⟩
  | .stray _ _ => none

def ArgPiece.isSwitch : ArgPiece F → Bool
  | .switch _ _ _ _ => true
  | _ => false

def ArgPiece.isStray : ArgPiece F → Bool
  | .stray _ _ => true
  | _ => false

/-- Two pieces that can stand side by side: a switch would take a stray item for its value. -/
def Apart (p q : ArgPiece F) : Prop := p.isSwitch = true → q.isStray = false

/-- A row of items in pieces. -/
def pieces : List (Json F) → List (ArgPiece F)
  | [] => []
  | item :: rest =>
      if hf : isFlagItem item = true then
        if he : itemHas item '=' = true then .eq item hf he :: pieces rest
        else if hb : itemHas item ' ' = true then .space item hf (by simpa using he) hb :: pieces rest
        else
          match rest with
          | following :: after =>
              if hn : isFlagItem following = true then
                .switch item hf (by simpa using he) (by simpa using hb) :: pieces (following :: after)
              else
                .pair item following hf (by simpa using he) (by simpa using hb) (by simpa using hn) ::
                  pieces after
          | [] => [.switch item hf (by simpa using he) (by simpa using hb)]
      else .stray item (by simpa using hf) :: pieces rest

/-! ### One piece is read off -/

section OnePiece

attribute [local simp] pieces

theorem pieces_stray {item : Json F} (h : isFlagItem item = false) (rest : List (Json F)) :
    pieces (item :: rest) = .stray item h :: pieces rest := by
  simp [h]

theorem pieces_eq {item : Json F} (hf : isFlagItem item = true) (he : itemHas item '=' = true)
    (rest : List (Json F)) : pieces (item :: rest) = .eq item hf he :: pieces rest := by
  simp [hf, he]

theorem pieces_space {item : Json F} (hf : isFlagItem item = true) (he : itemHas item '=' = false)
    (hb : itemHas item ' ' = true) (rest : List (Json F)) :
    pieces (item :: rest) = .space item hf he hb :: pieces rest := by
  simp [hf, he, hb]

theorem pieces_pair {item value : Json F} (hf : isFlagItem item = true) (he : itemHas item '=' = false)
    (hb : itemHas item ' ' = false) (hv : isFlagItem value = false) (rest : List (Json F)) :
    pieces (item :: value :: rest) = .pair item value hf he hb hv :: pieces rest := by
  simp [hf, he, hb, hv]

end OnePiece

/-- A switch is bare where a flag follows it, or nothing. -/
theorem pieces_switch {item : Json F} (hf : isFlagItem item = true) (he : itemHas item '=' = false)
    (hb : itemHas item ' ' = false) {rest : List (Json F)} (hrest : ∀ x ∈ rest.head?, isFlagItem x = true) :
    pieces (item :: rest) = .switch item hf he hb :: pieces rest := by
  cases rest with
  | nil => simp [pieces, hf, he, hb]
  | cons following after =>
      have hn : isFlagItem following = true := hrest following rfl
      rw [pieces]
      simp [hf, he, hb, hn]

/-- Can the items stand after a piece? -/
def Fits (p : ArgPiece F) (rest : List (Json F)) : Prop :=
  p.isSwitch = true → ∀ x ∈ rest.head?, isFlagItem x = true

/-- A piece is read off the list it begins. -/
theorem pieces_append_piece {p : ArgPiece F} {rest : List (Json F)} (h : Fits p rest) :
    pieces (p.items ++ rest) = p :: pieces rest := by
  cases p with
  | eq item hf he => exact pieces_eq hf he rest
  | space item hf he hb => exact pieces_space hf he hb rest
  | pair item value hf he hb hv => exact pieces_pair hf he hb hv rest
  | switch item hf he hb => exact pieces_switch hf he hb (h rfl)
  | stray item hf => exact pieces_stray hf rest

theorem fits_of_not_switch {p : ArgPiece F} (h : p.isSwitch = false) (rest : List (Json F)) : Fits p rest :=
  fun hswitch => absurd (h.symm.trans hswitch) (by decide)

/-- A list is empty, or it begins with a piece. -/
theorem pieces_cases {C : List (Json F) → Prop} (nil : C [])
    (cons : ∀ (p : ArgPiece F) (rest : List (Json F)), Fits p rest → C rest → C (p.items ++ rest))
    (items : List (Json F)) : C items := by
  -- a pair takes two items at once, so the induction is on the length
  induction hlen : items.length using Nat.strong_induction_on generalizing items with
  | _ n ih =>
      cases items with
      | nil => exact nil
      | cons item rest =>
          have hsmaller : C rest := ih rest.length (by rw [← hlen, List.length_cons]; omega) rest rfl
          cases hf : isFlagItem item with
          | false => exact cons (.stray item hf) rest (fits_of_not_switch rfl rest) hsmaller
          | true =>
              cases he : itemHas item '=' with
              | true => exact cons (.eq item hf he) rest (fits_of_not_switch rfl rest) hsmaller
              | false =>
                  cases hb : itemHas item ' ' with
                  | true => exact cons (.space item hf he hb) rest (fits_of_not_switch rfl rest) hsmaller
                  | false =>
                      by_cases hrest : ∀ x ∈ rest.head?, isFlagItem x = true
                      · exact cons (.switch item hf he hb) rest (fun _ => hrest) hsmaller
                      · cases rest with
                        | nil => exact absurd (by simp) hrest
                        | cons value after =>
                            have hv : isFlagItem value = false := by simpa using hrest
                            have hafter : C after := ih after.length (by rw [← hlen, List.length_cons, List.length_cons]; omega) after rfl
                            exact cons (.pair item value hf he hb hv) after (fits_of_not_switch rfl after) hafter

/-! ## The pieces are the list -/

theorem pieces_items (items : List (Json F)) : (pieces items).flatMap ArgPiece.items = items := by
  induction items using pieces_cases with
  | nil => rfl
  | cons p rest hp ih => rw [pieces_append_piece hp, List.flatMap_cons, ih]

/-- The flags among the pieces, from a place of the list on. -/
def argsAt : Nat → List (ArgPiece F) → List Arg
  | _, [] => []
  | i, p :: ps => (p.arg i).toList ++ argsAt (i + p.items.length) ps

/-- The scan goes on behind a piece. -/
theorem scanFrom_append_piece {p : ArgPiece F} {rest : List (Json F)} (h : Fits p rest) (i : Nat) :
    scanFrom i ((p.items ++ rest).map Json.text) =
      (p.arg i).toList ++ scanFrom (i + p.items.length) (rest.map Json.text) := by
  cases p with
  | eq item hf he =>
      simp only [isFlagItem, itemHas] at hf he
      change scanFrom i (item.text :: rest.map Json.text) = _
      rw [scanFrom.eq_def]
      simp [ArgPiece.items, ArgPiece.arg, hf, he]
  | space item hf he hb =>
      simp only [isFlagItem, itemHas] at hf he hb
      change scanFrom i (item.text :: rest.map Json.text) = _
      rw [scanFrom.eq_def]
      simp [ArgPiece.items, ArgPiece.arg, hf, he, hb]
  | pair item value hf he hb hv =>
      simp only [isFlagItem, itemHas] at hf he hb hv
      simp [ArgPiece.items, ArgPiece.arg, scanFrom, hf, he, hb, hv]
  | switch item hf he hb =>
      have hrest := h rfl
      simp only [isFlagItem, itemHas] at hf he hb hrest
      cases rest with
      | nil => simp [ArgPiece.items, ArgPiece.arg, scanFrom, hf, he, hb]
      | cons following after =>
          have hn := hrest following rfl
          simp [ArgPiece.items, ArgPiece.arg, scanFrom, hf, he, hb, hn]
  | stray item hf =>
      simp only [isFlagItem] at hf
      change scanFrom i (item.text :: rest.map Json.text) = _
      rw [scanFrom.eq_def]
      simp [ArgPiece.items, ArgPiece.arg, hf]

/-- The flags among the pieces are what the scan finds. -/
theorem scanFrom_pieces (items : List (Json F)) (i : Nat) :
    scanFrom i (items.map Json.text) = argsAt i (pieces items) := by
  induction items using pieces_cases generalizing i with
  | nil => rfl
  | cons p rest hp ih => rw [scanFrom_append_piece hp, pieces_append_piece hp, argsAt, ih]

/-! ## A row of pieces is read again as it was -/

/-- Behind a piece comes the first item of the next one. -/
theorem fits_flatMap {p : ArgPiece F} {ps : List (ArgPiece F)} {rest : List (Json F)}
    (h : ∀ q ∈ ps.head?, Apart p q) (hnil : ps = [] → Fits p rest) :
    Fits p (ps.flatMap ArgPiece.items ++ rest) := by
  intro hswitch x hx
  cases ps with
  | nil => exact hnil rfl hswitch x hx
  | cons q ps =>
      have hq : q.isStray = false := h q rfl hswitch
      cases q with
      | eq item hf he => cases hx; exact hf
      | space item hf he hb => cases hx; exact hf
      | pair item value hf he hb hv => cases hx; exact hf
      | switch item hf he hb => cases hx; exact hf
      | stray item hf => cases hq

/-- Pieces that stand apart are read off one after the other. -/
theorem pieces_flatMap_append {ps : List (ArgPiece F)} (hps : ps.IsChain Apart) {rest : List (Json F)}
    (hlast : ∀ p ∈ ps.getLast?, Fits p rest) :
    pieces (ps.flatMap ArgPiece.items ++ rest) = ps ++ pieces rest := by
  induction ps with
  | nil => rfl
  | cons p ps ih =>
      have hhead : ∀ q ∈ ps.head?, Apart p q := by
        cases ps with
        | nil => simp
        | cons q ps => simpa using (List.isChain_cons_cons.mp hps).1
      have hfits : Fits p (ps.flatMap ArgPiece.items ++ rest) := by
        refine fits_flatMap hhead fun hnil => hlast p ?_
        simp [hnil]
      have htail : ∀ q ∈ ps.getLast?, Fits q rest := by
        intro q hq
        refine hlast q ?_
        cases ps with
        | nil => cases hq
        | cons q' ps => simpa using hq
      rw [List.flatMap_cons, List.append_assoc, pieces_append_piece hfits, ih hps.tail htail,
        List.cons_append]

theorem pieces_flatMap {ps : List (ArgPiece F)} (hps : ps.IsChain Apart) : pieces (ps.flatMap ArgPiece.items) = ps := by
  have hread := @pieces_flatMap_append F _ ps hps [] fun p _ _ x hx => by cases hx
  simpa [pieces] using hread

/-- The first piece is stray exactly where the first item is no flag. -/
theorem isStray_head {items : List (Json F)} {q : ArgPiece F} (hq : q ∈ (pieces items).head?) :
    ∃ x ∈ items.head?, q.isStray = !isFlagItem x := by
  induction items using pieces_cases with
  | nil => cases hq
  | cons p rest hp ih =>
      rw [pieces_append_piece hp, List.head?_cons, Option.mem_some_iff] at hq
      subst hq
      cases p with
      | eq item hf he => exact ⟨item, rfl, by simp [hf, ArgPiece.isStray]⟩
      | space item hf he hb => exact ⟨item, rfl, by simp [hf, ArgPiece.isStray]⟩
      | pair item value hf he hb hv => exact ⟨item, rfl, by simp [hf, ArgPiece.isStray]⟩
      | switch item hf he hb => exact ⟨item, rfl, by simp [hf, ArgPiece.isStray]⟩
      | stray item hf => exact ⟨item, rfl, by simp [hf, ArgPiece.isStray]⟩

/-- The pieces of a list stand apart. -/
theorem pieces_apart (items : List (Json F)) : (pieces items).IsChain Apart := by
  induction items using pieces_cases with
  | nil => exact .nil
  | cons p rest hp ih =>
      rw [pieces_append_piece hp]
      refine List.IsChain.cons ih fun q hq hswitch => ?_
      rcases isStray_head hq with ⟨x, hx, hstray⟩
      have hflag : isFlagItem x = true := hp hswitch x hx
      simpa [hflag] using hstray

end Pieces

end AutoTune
