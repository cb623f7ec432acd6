import Mathlib

/-!
# The port a URL leads to

The authority of a URL ends at the first slash, question mark or number sign. It may have a port
behind its last colon, unless that colon is one of an address in brackets or of a user name. A URL
leads to this port, and to the default port of its scheme when there is none (`effectivePort`).

A path behind an authority changes nothing (`authority_append_path`). A port that is written behind
a host is the one that the URL leads to, unless the authority has ended within the host
(`authority_append_port`, `portOf_append_port`).
-/

set_option autoImplicit false
set_option relaxedAutoImplicit false

namespace LiveCDN.Library.UrlPort

/-- A character that ends an authority. -/
def endsAuthority (c : Char) : Bool := decide (c = '/' ∨ c = '?' ∨ c = '#')

/-- The authority that a text starts with. -/
def authority (text : List Char) : List Char := text.takeWhile fun c ↦ !endsAuthority c

/-- A text that is all authority. -/
def IsAuthority (text : List Char) : Prop := ∀ c ∈ text, endsAuthority c = false

instance (text : List Char) : Decidable (IsAuthority text) :=
  List.decidableBAll (fun c : Char ↦ endsAuthority c = false) text

/-- A character that is no part of a port: the colon in front of it, the end of an address in
brackets, or the end of a user name. -/
def boundsPort (c : Char) : Bool := decide (c = ':' ∨ c = ']' ∨ c = '@')

/-- The text of the port in an authority, none when it has none. -/
def portText (authority : List Char) : Option (List Char) :=
  match authority.reverse.dropWhile fun c ↦ !boundsPort c with
  | ':' :: _ => some (authority.reverse.takeWhile fun c ↦ !boundsPort c).reverse
  | _ => none

/-- The port of an authority: the default one when it has none or an empty one, and none when it is
no number. -/
def portOf (defaultPort : ℤ) (authority : List Char) : Option ℤ :=
  match portText authority with
  | none => some defaultPort
  | some [] => some defaultPort
  | some digits =>
    if digits.all Char.isDigit = true then some (Nat.ofDigitChars 10 digits 0) else none

/-- The port a URL leads to, for the two schemes of HTTP. -/
def effectivePort (url : List Char) : Option ℤ :=
  if "https://".toList.isPrefixOf url = true then portOf 443 (authority (url.drop 8))
  else if "http://".toList.isPrefixOf url = true then portOf 80 (authority (url.drop 7))
  else none

/-! ### Schemes -/

theorem effectivePort_https (rest : List Char) :
    effectivePort ("https://".toList ++ rest) = portOf 443 (authority rest) := rfl

theorem effectivePort_http (rest : List Char) :
    effectivePort ("http://".toList ++ rest) = portOf 80 (authority rest) := rfl

/-! ### Authorities -/

variable {host : List Char}

/-- A text without an end is all authority. -/
theorem authority_of_isAuthority (hhost : IsAuthority host) : authority host = host := by
  refine List.takeWhile_eq_self_iff.mpr fun c hc ↦ ?_
  rw [hhost c hc, Bool.not_false]

/-- An authority that ends within a text is not changed by what is behind the text. -/
theorem authority_append_of_not (hhost : ¬ IsAuthority host) (rest : List Char) :
    authority (host ++ rest) = authority host := by
  have hlength : ¬ (host.takeWhile fun c ↦ !endsAuthority c).length = host.length := by
    intro hlength
    refine hhost fun c hc ↦ ?_
    have hall := (List.takeWhile_prefix _).eq_of_length hlength
    have hcontinues := List.takeWhile_eq_self_iff.mp hall c hc
    rwa [Bool.not_eq_true'] at hcontinues
  rw [authority, List.takeWhile_append, if_neg hlength]
  rfl

/-- A path is no part of the authority. -/
theorem authority_append_path (host path : List Char) :
    authority (host ++ '/' :: path) = authority host := by
  by_cases hhost : IsAuthority host
  · rw [authority_of_isAuthority hhost, authority, List.takeWhile_append_of_pos fun c hc ↦ by
      rw [hhost c hc, Bool.not_false], List.takeWhile_cons_of_neg (by decide), List.append_nil]
  · exact authority_append_of_not hhost _

/-- A digit is none of the other characters. -/
theorem ne_of_isDigit {c other : Char} (hc : c.isDigit = true) (hother : other.isDigit = false) :
    c ≠ other := by
  rintro rfl
  exact Bool.false_ne_true (hother.symm.trans hc)

/-- A digit ends no authority. -/
theorem endsAuthority_of_isDigit {c : Char} (hc : c.isDigit = true) : endsAuthority c = false :=
  decide_eq_false (not_or.mpr ⟨ne_of_isDigit hc rfl,
    not_or.mpr ⟨ne_of_isDigit hc rfl, ne_of_isDigit hc rfl⟩⟩)

/-- The authority of a host with a port. -/
theorem authority_append_port {digits : List Char} (hdigits : ∀ c ∈ digits, c.isDigit = true)
    (hhost : IsAuthority host) : authority (host ++ ':' :: digits) = host ++ ':' :: digits := by
  refine authority_of_isAuthority (List.forall_mem_append.mpr ⟨hhost, ?_⟩)
  exact List.forall_mem_cons.mpr ⟨by decide, fun c hc ↦ endsAuthority_of_isDigit (hdigits c hc)⟩

/-! ### Ports -/

/-- A digit is part of a port. -/
theorem boundsPort_of_isDigit {c : Char} (hc : c.isDigit = true) : boundsPort c = false :=
  decide_eq_false (not_or.mpr ⟨ne_of_isDigit hc rfl,
    not_or.mpr ⟨ne_of_isDigit hc rfl, ne_of_isDigit hc rfl⟩⟩)

/-- The text of a port that is written behind a host. -/
theorem portText_append (host : List Char) {digits : List Char}
    (hdigits : ∀ c ∈ digits, c.isDigit = true) :
    portText (host ++ ':' :: digits) = some digits := by
  have hreverse : ∀ c ∈ digits.reverse, (!boundsPort c) = true := fun c hc ↦ by
    rw [boundsPort_of_isDigit (hdigits c (List.mem_reverse.mp hc)), Bool.not_false]
  have hsplit : (host ++ ':' :: digits).reverse = digits.reverse ++ ':' :: host.reverse := by simp
  unfold portText
  rw [hsplit, List.dropWhile_append_of_pos hreverse, List.takeWhile_append_of_pos hreverse,
    List.dropWhile_cons_of_neg (by decide), List.takeWhile_cons_of_neg (by decide)]
  simp

/-- The port that is written behind a host. -/
theorem portOf_append_port (defaultPort : ℤ) (host : List Char) {digits : List Char}
    (hne : digits ≠ []) (hdigits : ∀ c ∈ digits, c.isDigit = true) :
    portOf defaultPort (host ++ ':' :: digits) = some (Nat.ofDigitChars 10 digits 0 : ℤ) := by
  obtain ⟨c, rest, rfl⟩ := List.exists_cons_of_ne_nil hne
  unfold portOf
  rw [portText_append host hdigits]
  exact if_pos (List.all_eq_true.mpr hdigits)

/-- A host that has nothing to bound a port with has none. -/
theorem portOf_of_plain (defaultPort : ℤ) (hhost : ∀ c ∈ host, boundsPort c = false) :
    portOf defaultPort host = some defaultPort := by
  have hnone : host.reverse.dropWhile (fun c ↦ !boundsPort c) = [] :=
    List.dropWhile_eq_nil_iff.mpr fun c hc ↦ by
      rw [hhost c (List.mem_reverse.mp hc), Bool.not_false]
  unfold portOf portText
  rw [hnone]

/-- An address in brackets has no port. -/
theorem portOf_brackets (defaultPort : ℤ) (address : List Char) :
    portOf defaultPort ('[' :: address ++ [']']) = some defaultPort := by
  have hbracket : (']' :: ('[' :: address).reverse).dropWhile (fun c ↦ !boundsPort c) =
      ']' :: ('[' :: address).reverse := List.dropWhile_cons_of_neg (by decide)
  unfold portOf portText
  rw [List.reverse_append, List.reverse_singleton, List.singleton_append, hbracket]
  rfl

end LiveCDN.Library.UrlPort
