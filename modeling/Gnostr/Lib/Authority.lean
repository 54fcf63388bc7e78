/-
The authority of a URL, which ends at the first slash, question mark or number sign, and
the host in it, which stands between an optional user and an optional port.  Addresses of
four octets and the blocks they lie in.
-/
import Gnostr.Lib.Decimal
import Mathlib.Data.List.DropRight

namespace Gnostr

section Segments

variable {α : Type*} {p q : α → Bool}

/-- A longer beginning goes on where a shorter one ends. -/
theorem takeWhile_eq_append_of_imp (himp : ∀ a, p a = true → q a = true) (list : List α) :
    list.takeWhile q = list.takeWhile p ++ (list.dropWhile p).takeWhile q := by
  have hfirst : ∀ a ∈ list.takeWhile p, q a = true :=
    fun a ha => himp a (List.mem_takeWhile_imp ha)
  rw [← List.takeWhile_append_of_pos hfirst, List.takeWhile_append_dropWhile]

theorem rtakeWhile_append_of_all {last : List α} (hlast : ∀ a ∈ last, p a = true)
    (first : List α) : (first ++ last).rtakeWhile p = first.rtakeWhile p ++ last := by
  have hreverse : ∀ a ∈ last.reverse, p a = true :=
    fun a ha => hlast a (List.mem_reverse.mp ha)
  rw [List.rtakeWhile, List.reverse_append, List.takeWhile_append_of_pos hreverse,
    List.reverse_append, List.reverse_reverse, List.rtakeWhile]

theorem rtakeWhile_append_of_mem {last : List α} {a : α} (ha : a ∈ last)
    (hstop : p a = false) (first : List α) :
    (first ++ last).rtakeWhile p = last.rtakeWhile p := by
  induction last using List.reverseRecOn with
  | nil => exact absurd ha List.not_mem_nil
  | append_singleton last b ih =>
      rw [← List.append_assoc, List.rtakeWhile_concat, List.rtakeWhile_concat]
      by_cases hb : p b = true
      · rw [if_pos hb, if_pos hb]
        rcases List.mem_append.mp ha with hearlier | hhere
        · rw [ih hearlier]
        · rw [List.mem_singleton.mp hhere, hb] at hstop
          cases hstop
      · rw [if_neg hb, if_neg hb]

end Segments

section Authority

/-- The characters that do not end an authority. -/
def isAuthorityChar (c : Char) : Bool := c != '/' && c != '?' && c != '#'

/-- What follows the scheme and the two slashes, for a URL of one of the schemes. -/
def schemeRest (schemes : List (List Char)) (url : List Char) : Option (List Char) :=
  let scheme := url.takeWhile (· != ':')
  if scheme.map Char.toLower ∈ schemes then
    (url.dropWhile (· != ':')).dropPrefix? "://".toList
  else none

/-- The host of an authority; one in brackets may have colons. -/
def hostOfAuthority (authority : List Char) : List Char :=
  let hostPort := authority.rtakeWhile (· != '@')
  if hostPort.head? = some '[' then hostPort.takeWhile (· != ']') ++ [']']
  else hostPort.takeWhile (· != ':')

/-- The host of a URL. -/
def urlHost (schemes : List (List Char)) (url : List Char) : Option (List Char) :=
  (schemeRest schemes url).map fun rest => hostOfAuthority (rest.takeWhile isAuthorityChar)

theorem schemeRest_append {schemes : List (List Char)} {scheme : List Char}
    (hcolon : ':' ∉ scheme) (hscheme : scheme.map Char.toLower ∈ schemes) (rest : List Char) :
    schemeRest schemes (scheme ++ ("://".toList ++ rest)) = some rest := by
  have hkept : ∀ c ∈ scheme, (c != ':') = true := by
    intro c hc
    rw [bne_iff_ne]
    rintro rfl
    exact hcolon hc
  have hseparator : "://".toList ++ rest = ':' :: '/' :: '/' :: rest := rfl
  unfold schemeRest
  dsimp only
  rw [List.takeWhile_append_of_pos hkept, List.dropWhile_append_of_pos hkept, hseparator,
    List.takeWhile_cons_of_neg (by decide), List.dropWhile_cons_of_neg (by decide),
    List.append_nil, if_pos hscheme, ← hseparator, List.dropPrefix?_eq_some_iff]
  exact ⟨_, rfl, beq_self_eq_true _⟩

/-- A host that is not in brackets is what stands before the colon. -/
theorem takeWhile_of_hostOfAuthority {authority host : List Char}
    (hhost : hostOfAuthority authority = host) (hbracket : host.head? ≠ some '[') :
    (authority.rtakeWhile (· != '@')).takeWhile (· != ':') = host ∧
      (authority.rtakeWhile (· != '@')).head? ≠ some '[' := by
  unfold hostOfAuthority at hhost
  dsimp only at hhost
  split_ifs at hhost with hopen
  · cases hrest : authority.rtakeWhile (· != '@') with
    | nil =>
        rw [hrest] at hopen
        cases hopen
    | cons c rest =>
        rw [hrest] at hopen hhost
        obtain rfl := Option.some.inj hopen
        rw [List.takeWhile_cons_of_pos (by decide)] at hhost
        rw [← hhost] at hbracket
        exact absurd rfl hbracket
  · exact ⟨hhost, hopen⟩

end Authority

/-- An address of four octets. -/
structure Ipv4 where
  first : Fin 256
  second : Fin 256
  third : Fin 256
  fourth : Fin 256
deriving Repr, DecidableEq

namespace Ipv4

/-- The octets in decimal, with dots between them. -/
def text (address : Ipv4) : List Char :=
  decimal address.first ++ '.' ::
    (decimal address.second ++ '.' :: (decimal address.third ++ '.' :: decimal address.fourth))

def number (address : Ipv4) : ℕ :=
  ((address.first * 256 + address.second) * 256 + address.third) * 256 + address.fourth

end Ipv4

/-- The addresses that agree with a base in a number of leading bits. -/
structure Ipv4Block where
  base : Ipv4
  bits : ℕ
deriving Repr, DecidableEq

def Ipv4Block.Contains (block : Ipv4Block) (address : Ipv4) : Prop :=
  address.number / 2 ^ (32 - block.bits) = block.base.number / 2 ^ (32 - block.bits)

instance (block : Ipv4Block) (address : Ipv4) : Decidable (block.Contains address) :=
  inferInstanceAs (Decidable (_ = _))

end Gnostr
