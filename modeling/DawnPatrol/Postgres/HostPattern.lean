import DawnPatrol.Foundation.WildcardSearch
import DawnPatrol.Go.Values

/-!
# Host patterns

`FirstByHost` matches a host against the stored pattern with the operator
`~*`: a search for the regular expression anywhere in the host, ignoring case.
The operator is a parameter (`HostOperator`), known on plain patterns only:
alternatives of letters, digits and dots, as the seed stores them and a copy
of an association with a plain name does. A dot stands for any character.

`matchesPattern_web` says which names the pattern of another name takes for its
own, once both have been given the domain `.web`.
-/

set_option autoImplicit false

namespace DawnPatrol.Postgres

open Foundation Go

/-- One place of a pattern. -/
inductive HostAtom where
  | any
  | letter (c : Char)
  deriving DecidableEq

/-- The place a character of a pattern stands for. -/
def hostAtom (c : Char) : HostAtom := if c = '.' then .any else .letter c

/-- A letter accepts itself in either case. -/
def HostAtom.accepts : HostAtom → Char → Bool
  | any, _ => true
  | letter c, found => found == c.toLower || found == c.toUpper

/-- The alternatives of a pattern. -/
def alternatives (pattern : String) : List (List HostAtom) :=
  (pattern.toList.splitOn '|').map fun branch => branch.map hostAtom

/-- `host ~* pattern`, for a plain pattern. -/
def matchesPattern (host pattern : String) : Bool :=
  (alternatives pattern).any fun branch => occursIn HostAtom.accepts branch host.toList

example : matchesPattern "cbra.web:8080" "0.0.0.0|localhost|cbra.web" = true := by decide
example : matchesPattern "usacycling.org" "0.0.0.0|localhost|cbra.web" = false := by decide

/-- A pattern of letters, digits, dots and bars. -/
def IsPlainPattern (pattern : String) : Prop :=
  ∀ c ∈ pattern.toList, c.isAlphanum = true ∨ c = '.' ∨ c = '|'

/-- The operator `~*` of the database. It may take a pattern that is not plain for any
regular expression. A pattern that is none makes the query fail, which is a fault
of the call. -/
structure HostOperator where
  matchesHost : String → String → Bool
  plain : ∀ host pattern, IsPlainPattern pattern →
    matchesHost host pattern = matchesPattern host pattern

/-- The operator that takes every pattern for a plain one. -/
def HostOperator.ofPlain : HostOperator where
  matchesHost := matchesPattern
  plain _ _ _ := rfl

/-! ## The patterns of names -/

theorem alternatives_web {name : String} (plain : ∀ c ∈ name.toList, IsLowerAlphanum c) :
    alternatives ("0.0.0.0|localhost|" ++ name ++ ".web") =
      ["0.0.0.0".toList, "localhost".toList, name.toList ++ ".web".toList].map
        (List.map hostAtom) := by
  have noBar : '|' ∉ name.toList ++ ".web".toList := by
    intro member
    rcases List.mem_append.mp member with inName | inDomain
    · exact absurd (plain '|' inName) (by decide)
    · exact absurd inDomain (by decide)
  have bars : ("0.0.0.0|localhost|" ++ name ++ ".web").toList =
      "0.0.0.0".toList ++ '|' :: ("localhost".toList ++ '|' :: (name.toList ++ ".web".toList)) := by
    simp
  rw [alternatives, bars, List.splitOn_append_cons_self_of_not_mem (by decide),
    List.splitOn_append_cons_self_of_not_mem (by decide), List.splitOn_eq_singleton noBar]

/-- The pattern of a name is plain. -/
theorem isPlainPattern_web {name : String} (plain : ∀ c ∈ name.toList, IsLowerAlphanum c) :
    IsPlainPattern ("0.0.0.0|localhost|" ++ name ++ ".web") := by
  have shown : ∀ part : String, (part.toList.all fun c => c.isAlphanum || c == '.' || c == '|') →
      IsPlainPattern part := by
    intro part all c member
    simpa [or_assoc] using List.all_eq_true.mp all c member
  intro c member
  simp only [String.toList_append, List.mem_append] at member
  rcases member with (inHosts | inName) | inDomain
  · exact shown "0.0.0.0|localhost|" (by decide) c inHosts
  · refine .inl ((Bool.or_eq_true _ _).mpr ((plain c inName).imp_left fun lower => ?_))
    exact (Bool.or_eq_true _ _).mpr (.inr lower)
  · exact shown ".web" (by decide) c inDomain

theorem accepts_iff {c d : Char} (lowerC : IsLowerAlphanum c) (lowerD : IsLowerAlphanum d) :
    (hostAtom c).accepts d = true ↔ d = c := by
  have notDot : c ≠ '.' := by
    rintro rfl
    exact absurd lowerC (by decide)
  rw [hostAtom, if_neg notDot, HostAtom.accepts, Bool.or_eq_true, beq_iff_eq, beq_iff_eq,
    eq_of_lowerAlphanum lowerC lowerD]

section Web

variable {branch : List Char} {name shown : String}

/-- An alternative that ends in a letter outside the domain matches within the name. -/
theorem occursIn_web {last : Char}
    (outside : ".web".toList.reverse.any (hostAtom last).accepts = false) :
    occursIn HostAtom.accepts ((branch ++ [last]).map hostAtom) (shown ++ ".web").toList =
      occursIn HostAtom.accepts ((branch ++ [last]).map hostAtom) shown.toList := by
  rw [← occursIn_reverse, ← @occursIn_reverse _ _ _ _ shown.toList]
  simp only [List.map_append, List.map_cons, List.map_nil, List.reverse_append,
    List.reverse_singleton, String.toList_append, List.singleton_append]
  exact occursIn_append_of_rejects outside

/-- A name with its domain matches at the end, or within the name. -/
theorem occursIn_name_web (lowerName : ∀ c ∈ name.toList, IsLowerAlphanum c)
    (lowerShown : ∀ c ∈ shown.toList, IsLowerAlphanum c) :
    occursIn HostAtom.accepts ((name.toList ++ ".web".toList).map hostAtom)
        (shown ++ ".web").toList = true ↔
      name.toList <:+ shown.toList ∨
        occursIn HostAtom.accepts ((name.toList ++ ".web".toList).map hostAtom) shown.toList =
          true := by
  have atoms : ((name.toList ++ ".web".toList).map hostAtom).reverse =
      [.letter 'b', .letter 'e', .letter 'w', .any] ++ name.toList.reverse.map hostAtom := by
    simp [hostAtom]
  have letters : (shown ++ ".web").toList.reverse =
      'b' :: (['e', 'w', '.'] ++ shown.toList.reverse) := by
    simp
  have atEnd : matchesHere HostAtom.accepts (name.toList.reverse.map hostAtom)
      shown.toList.reverse = true ↔ name.toList <:+ shown.toList := by
    rw [matchesHere_map_iff fun c inName d inShown => accepts_iff
      (lowerName c (List.mem_reverse.mp inName)) (lowerShown d (List.mem_reverse.mp inShown)),
      List.reverse_prefix]
  have within : occursIn HostAtom.accepts
      ([.letter 'b', .letter 'e', .letter 'w', .any] ++ name.toList.reverse.map hostAtom)
        (['e', 'w', '.'] ++ shown.toList.reverse) =
      occursIn HostAtom.accepts
        ([.letter 'b', .letter 'e', .letter 'w', .any] ++ name.toList.reverse.map hostAtom)
          shown.toList.reverse := occursIn_append_of_rejects (by decide)
  rw [← occursIn_reverse, ← @occursIn_reverse _ _ _ _ shown.toList, atoms, letters, occursIn,
    Bool.or_eq_true, within, ← atEnd]
  exact or_congr_left Iff.rfl

/-- **The pattern of a name matches another name with its domain** exactly when the
name ends the other, or the pattern matches the other without the domain. -/
theorem matchesPattern_web (lowerName : ∀ c ∈ name.toList, IsLowerAlphanum c)
    (lowerShown : ∀ c ∈ shown.toList, IsLowerAlphanum c) :
    matchesPattern (shown ++ ".web") ("0.0.0.0|localhost|" ++ name ++ ".web") = true ↔
      name.toList <:+ shown.toList ∨
        matchesPattern shown ("0.0.0.0|localhost|" ++ name ++ ".web") = true := by
  have address : occursIn HostAtom.accepts ("0.0.0.0".toList.map hostAtom)
        (shown ++ ".web").toList =
      occursIn HostAtom.accepts ("0.0.0.0".toList.map hostAtom) shown.toList :=
    @occursIn_web "0.0.0.".toList shown '0' (by decide)
  have localhost : occursIn HostAtom.accepts ("localhost".toList.map hostAtom)
        (shown ++ ".web").toList =
      occursIn HostAtom.accepts ("localhost".toList.map hostAtom) shown.toList :=
    @occursIn_web "localhos".toList shown 't' (by decide)
  simp only [matchesPattern, alternatives_web lowerName, List.map_cons, List.map_nil, List.any_cons,
    List.any_nil, Bool.or_false, Bool.or_eq_true, address, localhost,
    occursIn_name_web lowerName lowerShown]
  tauto

end Web

end DawnPatrol.Postgres
