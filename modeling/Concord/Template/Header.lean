import Concord.Template
import Concord.Text.Name

/-!
Pattern headers. Between the `@` of a pattern and its `{` stand the kinds that the pattern is
about, joined by `+`; with no kind there the pattern leaves it to its tokens. `Header.read?`
decides where a pattern begins: an `@` that no header follows is ordinary text. It reads kinds as
long as a `+` and another kind follow, and then there must be the `{`.
-/

set_option autoImplicit false
set_option relaxedAutoImplicit false

namespace Concord.Header

/-- The header that names the given kinds. -/
def ofKinds : List String → Header
  | [] => .inferred
  | [kind] => .named kind
  | kinds => .complex kinds

/-- The kinds that the header names. -/
def kinds : Header → List String
  | .inferred => []
  | .named kind => [kind]
  | .complex kinds => kinds

/-- The header as it is written between `@` and `{`. -/
def text (header : Header) : String :=
  "+".intercalate header.kinds

/-- The kind at the front of a text and the text after it, if there is one. -/
def readKind? (s : List Char) : Option (String × List Char) :=
  match s.takeWhile Text.isNameChar with
  | [] => none
  | name => some (String.ofList name, s.dropWhile Text.isNameChar)

/-- A kind is read by taking it away. -/
theorem eq_append_of_readKind? {s rest : List Char} {kind : String}
    (h : readKind? s = some (kind, rest)) : kind.toList ≠ [] ∧ s = kind.toList ++ rest := by
  unfold readKind? at h
  split at h
  · cases h
  · next hname =>
    obtain ⟨rfl, rfl⟩ := Prod.mk.inj (Option.some.inj h)
    rw [String.toList_ofList]
    exact ⟨hname, List.takeWhile_append_dropWhile.symm⟩

theorem length_lt_of_readKind? {s rest : List Char} {kind : String} {c : Char}
    (h : readKind? s = some (kind, c :: rest)) : rest.length < s.length := by
  rw [(eq_append_of_readKind? h).2, List.length_append, List.length_cons]
  omega

/-- The kinds at the front of a text, joined by `+`, and the text after the last of them. A `+` that
no kind follows is left in the text. -/
def readKinds (s : List Char) : List String × List Char :=
  match hfirst : readKind? s with
  | none => ([], s)
  | some (first, '+' :: rest) =>
    have := length_lt_of_readKind? hfirst
    let others := readKinds rest
    if others.1.isEmpty then ([first], '+' :: rest) else (first :: others.1, others.2)
  | some (first, rest) => ([first], rest)
termination_by s.length

/-- A header and the text after its `{`, if the text begins with one. -/
def read? (s : List Char) : Option (Header × List Char) :=
  let found := readKinds s
  match found.2 with
  | '{' :: rest => some (ofKinds found.1, rest)
  | _ => none

@[simp] theorem kinds_ofKinds (names : List String) : (ofKinds names).kinds = names := by
  unfold ofKinds
  split <;> simp [kinds]

/-- Kinds are read by taking away what is written of them. -/
theorem eq_append_readKinds (s : List Char) :
    s = ("+".intercalate (readKinds s).1).toList ++ (readKinds s).2 := by
  fun_induction readKinds s with
  | case1 => simp
  | case2 _ _ _ hfirst => simpa using (eq_append_of_readKind? hfirst).2
  | case3 _ first _ hfirst _ others hothers ih =>
    obtain ⟨second, more, hmore⟩ :=
      List.exists_cons_of_ne_nil fun hnil ↦ hothers (List.isEmpty_iff.mpr hnil)
    rw [(eq_append_of_readKind? hfirst).2, ih]
    simp [others, hmore]
  | case4 _ _ _ _ hfirst => simpa using (eq_append_of_readKind? hfirst).2

/-- A header is read by taking away its written form and the `{` after it. -/
theorem eq_append_of_read? {s rest : List Char} {header : Header}
    (h : read? s = some (header, rest)) : s = header.text.toList ++ '{' :: rest := by
  unfold read? at h
  dsimp only at h
  split at h
  · next tail htail =>
    obtain ⟨rfl, rfl⟩ := Prod.mk.inj (Option.some.inj h)
    rw [text, kinds_ofKinds, ← htail]
    exact eq_append_readKinds s
  · cases h

theorem length_lt_of_read? {s rest : List Char} {header : Header}
    (h : read? s = some (header, rest)) : rest.length < s.length := by
  have := congrArg List.length (eq_append_of_read? h)
  simp only [List.length_append, List.length_cons] at this
  omega

end Concord.Header
