import DawnPatrol.Foundation.BinarySearch
import Mathlib.Data.List.Lex
import Mathlib.Data.List.Sort
import Mathlib.Data.String.Basic

/-!
# The trie of the router

The router of goji keeps the indexes of its routes in a radix trie. A node has
the routes of every prefix that leads to it, and its children are sorted by
their prefixes, no two of which start with the same character. A route is added
below a prefix by walking down, and splitting the edge at which the prefix
leaves the trie. What was added before is at every node below, so the walk of a
path ends at a node with exactly the routes whose prefix the path has
(`find_add`).

A path is a list of characters. An escaped path has no others than those of
ASCII.
-/

set_option autoImplicit false

namespace DawnPatrol.Goji

open Foundation.BinarySearch

/-- A node of the trie: the routes that end there or above, and the children with
their prefixes. -/
inductive TrieNode where
  | mk (routes : List ℕ) (children : List (List Char × TrieNode))

/-- A child with the prefix that leads to it. -/
abbrev Child := List Char × TrieNode

namespace TrieNode

def routes : TrieNode → List ℕ
  | mk routes _ => routes

def children : TrieNode → List Child
  | mk _ children => children

/-- The trie without routes. -/
def empty : TrieNode := mk [] []

/-! ## Adding a route -/

/-- The first character of the prefix of a child. -/
def firstChar (child : Child) : Char := child.1.headD '/'

/-- `sort.Sort(byPrefix(children))`. -/
def sortByPrefix (children : List Child) : List Child :=
  children.insertionSort fun first second => first.1 ≤ second.1

/-- What two texts start with. -/
def longestPrefix : List Char → List Char → List Char
  | a :: first, b :: second => if a = b then a :: longestPrefix first second else []
  | _, _ => []

mutual

/-- `add` with the empty prefix: the route ends here, and at every node below. -/
def addHere (idx : ℕ) : TrieNode → TrieNode
  | mk routes children => mk (routes ++ [idx]) (addBelow idx children)

def addBelow (idx : ℕ) : List Child → List Child
  | [] => []
  | (start, node) :: children => (start, addHere idx node) :: addBelow idx children

end

/-- A new child for the rest of a prefix, with the routes of its parent. -/
def addChild (start : List Char) (idx : ℕ) : TrieNode → TrieNode
  | mk routes children =>
      mk routes (sortByPrefix (children ++ [(start, mk (routes ++ [idx]) [])]))

/-- `add`, which takes at least one character off the prefix at each step. -/
def addWithin : ℕ → List Char → ℕ → TrieNode → TrieNode
  | _, [], idx, tn => addHere idx tn
  | 0, _ :: _, _, tn => tn
  | steps + 1, ch :: rest, idx, mk routes children =>
      let i := searchKey firstChar children ch
      match children[i]? with
      | none => addChild (ch :: rest) idx (mk routes children)
      | some (start, node) =>
          if firstChar (start, node) ≠ ch then addChild (ch :: rest) idx (mk routes children)
          else
            let lp := longestPrefix (ch :: rest) start
            if start = lp then
              mk routes (children.set i
                (start, addWithin steps ((ch :: rest).drop lp.length) idx node))
            else
              let split := mk routes [(start.drop lp.length, node)]
              mk routes (sortByPrefix (children.set i
                (lp, addWithin steps ((ch :: rest).drop lp.length) idx split)))

def add (tn : TrieNode) (start : List Char) (idx : ℕ) : TrieNode :=
  addWithin start.length start idx tn

/-! ## The walk of a path -/

/-- The walk down the trie, which takes at least one character off the path at each
step. -/
def walk : ℕ → TrieNode → List Char → List ℕ
  | _, tn, [] => tn.routes
  | 0, tn, _ :: _ => tn.routes
  | steps + 1, tn, c :: rest =>
      match tn.children[searchKey firstChar tn.children c]? with
      | none => tn.routes
      | some (start, node) =>
          if start <+: c :: rest then walk steps node ((c :: rest).drop start.length)
          else tn.routes

/-- The routes at the node at which the walk of a path ends. -/
def find (tn : TrieNode) (path : List Char) : List ℕ := walk path.length tn path

/-! ## Ordered tries -/

/-- The prefixes of the children are not empty, and are sorted by their first
characters, and so below. -/
inductive Ordered : TrieNode → Prop
  | mk {routes : List ℕ} {children : List Child} (nonempty : ∀ child ∈ children, child.1 ≠ [])
      (sorted : children.Pairwise fun a b => firstChar a < firstChar b)
      (below : ∀ child ∈ children, Ordered child.2) : Ordered (mk routes children)

theorem ordered_empty : empty.Ordered := ⟨by simp, List.Pairwise.nil, by simp⟩

section Find

variable {tn : TrieNode} {child : Child} {path : List Char}

theorem firstChar_eq {c : Char} {rest : List Char} (nonempty : child.1 ≠ [])
    (starts : child.1 <+: c :: rest) : firstChar child = c := by
  obtain ⟨start, node⟩ := child
  cases start with
  | nil => exact absurd rfl nonempty
  | cons d start => exact (List.cons_prefix_cons.mp starts).1

/-- The walk goes on at the child whose prefix the path has. -/
theorem walk_of_child (ordered : tn.Ordered) (member : child ∈ tn.children)
    (starts : child.1 <+: path) {steps : ℕ} (more : 0 < steps) :
    walk steps tn path = walk (steps - 1) child.2 (path.drop child.1.length) := by
  obtain ⟨nonempty, sorted, -⟩ := ordered
  obtain ⟨c, rest, rfl⟩ : ∃ c rest, path = c :: rest := by
    cases path with
    | nil => exact absurd (List.prefix_nil.mp starts) (nonempty child member)
    | cons c rest => exact ⟨c, rest, rfl⟩
  obtain ⟨steps, rfl⟩ : ∃ n, steps = n + 1 := ⟨steps - 1, by omega⟩
  have found := getElem?_searchKey sorted member (firstChar_eq (nonempty child member) starts)
  simp only [walk, children, found, if_pos starts, Nat.add_sub_cancel]

/-- The walk ends where the path has no prefix of a child. -/
theorem walk_of_none (none : ∀ child ∈ tn.children, ¬ child.1 <+: path) (steps : ℕ) :
    walk steps tn path = tn.routes := by
  cases steps with
  | zero => cases path <;> rfl
  | succ steps =>
      cases path with
      | nil => rfl
      | cons c rest =>
          rw [walk]
          cases found : tn.children[searchKey firstChar tn.children c]? with
          | none => rfl
          | some child => exact if_neg (none child (List.mem_of_getElem? found))

/-- A path has the prefix of a child, or of none. -/
theorem child_or_none (tn : TrieNode) (path : List Char) :
    (∃ child ∈ tn.children, child.1 <+: path) ∨ ∀ child ∈ tn.children, ¬ child.1 <+: path := by
  by_cases some : ∃ child ∈ tn.children, child.1 <+: path
  · exact .inl some
  · exact .inr fun child member starts => some ⟨child, member, starts⟩

theorem ordered_child (ordered : tn.Ordered) (member : child ∈ tn.children) :
    child.2.Ordered ∧ child.1 ≠ [] := by
  obtain ⟨nonempty, -, below⟩ := ordered
  exact ⟨below child member, nonempty child member⟩

theorem length_drop_lt (nonempty : child.1 ≠ []) (starts : child.1 <+: path) :
    (path.drop child.1.length).length < path.length := by
  have positive := List.length_pos_of_ne_nil nonempty
  have le := starts.length_le
  rw [List.length_drop]
  omega

/-- More steps than characters make no difference. -/
theorem walk_eq_find (ordered : tn.Ordered) {steps : ℕ} (enough : path.length ≤ steps) :
    walk steps tn path = tn.find path := by
  induction steps using Nat.strong_induction_on generalizing tn path with
  | _ steps ih =>
      rcases child_or_none tn path with ⟨child, member, starts⟩ | none
      · obtain ⟨below, nonempty⟩ := ordered_child ordered member
        have shorter := length_drop_lt nonempty starts
        rw [find, walk_of_child ordered member starts (by omega),
          walk_of_child ordered member starts (by omega),
          ih (steps - 1) (by omega) below (by omega)]
        rcases Nat.eq_or_lt_of_le enough with same | less
        · rw [same, ih (steps - 1) (by omega) below (by omega)]
        · rw [ih (path.length - 1) (by omega) below (by omega)]
      · rw [find, walk_of_none none, walk_of_none none]

/-- **The walk goes on** at the child whose prefix the path has. -/
theorem find_of_child (ordered : tn.Ordered) (member : child ∈ tn.children)
    (starts : child.1 <+: path) : tn.find path = child.2.find (path.drop child.1.length) := by
  obtain ⟨below, nonempty⟩ := ordered_child ordered member
  have shorter := length_drop_lt nonempty starts
  rw [find, walk_of_child ordered member starts (by omega), walk_eq_find below (by omega)]

/-- **The walk ends** where the path has no prefix of a child. -/
theorem find_of_none (none : ∀ child ∈ tn.children, ¬ child.1 <+: path) :
    tn.find path = tn.routes :=
  walk_of_none none path.length

end Find

/-! ## What adding does -/

section AddHere

variable {idx : ℕ} {tn : TrieNode}

theorem addBelow_eq (idx : ℕ) (children : List Child) :
    addBelow idx children = children.map fun child => (child.1, addHere idx child.2) := by
  induction children with
  | nil => rfl
  | cons child children ih => exact congrArg _ ih

theorem addHere_children (idx : ℕ) (tn : TrieNode) :
    (addHere idx tn).children = tn.children.map fun child => (child.1, addHere idx child.2) := by
  obtain ⟨routes, children⟩ := tn
  exact addBelow_eq idx children

theorem addHere_routes (idx : ℕ) (tn : TrieNode) :
    (addHere idx tn).routes = tn.routes ++ [idx] := by
  cases tn
  rfl

theorem ordered_addHere (ordered : tn.Ordered) : (addHere idx tn).Ordered := by
  induction ordered with
  | mk nonempty sorted below ih =>
      rw [addHere, addBelow_eq]
      constructor
      · rintro _ member
        obtain ⟨child, isChild, rfl⟩ := List.mem_map.mp member
        exact nonempty child isChild
      · exact List.pairwise_map.mpr sorted
      · rintro _ member
        obtain ⟨child, isChild, rfl⟩ := List.mem_map.mp member
        exact ih child isChild

/-- A route that is added at a node is found wherever a walk ends. -/
theorem find_addHere (ordered : tn.Ordered) (path : List Char) :
    (addHere idx tn).find path = tn.find path ++ [idx] := by
  induction length : path.length using Nat.strong_induction_on generalizing tn path with
  | _ n ih =>
      subst length
      rcases child_or_none tn path with ⟨child, member, starts⟩ | none
      · obtain ⟨below, nonempty⟩ := ordered_child ordered member
        have added : (child.1, addHere idx child.2) ∈ (addHere idx tn).children := by
          rw [addHere_children]
          exact List.mem_map_of_mem member
        rw [find_of_child ordered member starts,
          find_of_child (ordered_addHere ordered) added starts]
        exact ih _ (length_drop_lt nonempty starts) below _ rfl
      · rw [find_of_none none, ← addHere_routes]
        refine find_of_none fun child member => ?_
        rw [addHere_children] at member
        obtain ⟨old, isChild, rfl⟩ := List.mem_map.mp member
        exact none old isChild

end AddHere

section Sorting

variable {tn : TrieNode} {children : List Child} {child : Child} {start path : List Char} {idx : ℕ}

theorem firstChar_lt {first second : Child} (firstNonempty : first.1 ≠ [])
    (secondNonempty : second.1 ≠ []) (le : first.1 ≤ second.1)
    (other : firstChar first ≠ firstChar second) : firstChar first < firstChar second := by
  obtain ⟨_ | ⟨c, first⟩, node⟩ := first
  · exact absurd rfl firstNonempty
  · obtain ⟨_ | ⟨d, second⟩, below⟩ := second
    · exact absurd rfl secondNonempty
    · rcases lt_or_eq_of_le le with less | same
      · exact lt_of_le_of_ne (List.head_le_of_lt less) other
      · exact absurd (List.head_eq_of_cons_eq same) other

/-- Children whose prefixes start with different characters are sorted by these. -/
theorem sorted_sortByPrefix (nonempty : ∀ child ∈ children, child.1 ≠ [])
    (distinct : children.Pairwise fun a b => firstChar a ≠ firstChar b) :
    (sortByPrefix children).Pairwise fun a b => firstChar a < firstChar b := by
  have byPrefix := List.pairwise_insertionSort
    (fun first second : Child => first.1 ≤ second.1) children
  have perm := List.perm_insertionSort (fun first second : Child => first.1 ≤ second.1) children
  have still := (perm.pairwise_iff fun {_ _} other => Ne.symm other).mpr distinct
  refine (byPrefix.and still).imp_of_mem fun {a b} aMember bMember both => ?_
  exact firstChar_lt (nonempty a (perm.mem_iff.mp aMember)) (nonempty b (perm.mem_iff.mp bMember))
    both.1 both.2

theorem mem_sortByPrefix : child ∈ sortByPrefix children ↔ child ∈ children :=
  List.mem_insertionSort _

/-- A path has the prefixes of children that start with one character only. -/
theorem firstChar_of_starts (nonempty : child.1 ≠ []) (starts : child.1 <+: path) :
    path.head? = some (firstChar child) := by
  obtain ⟨start, node⟩ := child
  cases start with
  | nil => exact absurd rfl nonempty
  | cons c start =>
      obtain ⟨rest, rfl⟩ := starts
      rfl

theorem ordered_addChild (ordered : tn.Ordered) (nonempty : start ≠ [])
    (new : ∀ child ∈ tn.children, some (firstChar child) ≠ start.head?) :
    (addChild start idx tn).Ordered := by
  obtain ⟨routes, children⟩ := tn
  obtain ⟨allNonempty, sorted, below⟩ := ordered
  have isFirst : ∀ node, start.head? = some (firstChar (start, node)) := fun node =>
    firstChar_of_starts nonempty List.prefix_rfl
  constructor
  · intro child member
    rcases List.mem_append.mp (mem_sortByPrefix.mp member) with old | added
    · exact allNonempty child old
    · rw [List.mem_singleton.mp added]
      exact nonempty
  · refine sorted_sortByPrefix (fun child member => ?_) ?_
    · rcases List.mem_append.mp member with old | added
      · exact allNonempty child old
      · rw [List.mem_singleton.mp added]
        exact nonempty
    · refine List.pairwise_append.mpr ⟨sorted.imp ne_of_lt, List.pairwise_singleton _ _, ?_⟩
      rintro child old _ added same
      rw [List.mem_singleton.mp added] at same
      exact new child old (by rw [isFirst, same])
  · intro child member
    rcases List.mem_append.mp (mem_sortByPrefix.mp member) with old | added
    · exact below child old
    · rw [List.mem_singleton.mp added]
      exact ⟨by simp, List.Pairwise.nil, by simp⟩

/-- A route in a new child is found by the paths that have its prefix. -/
theorem find_addChild (ordered : tn.Ordered) (nonempty : start ≠ [])
    (new : ∀ child ∈ tn.children, some (firstChar child) ≠ start.head?) (path : List Char) :
    (addChild start idx tn).find path =
      if start <+: path then tn.find path ++ [idx] else tn.find path := by
  have ordered' := @ordered_addChild tn start idx ordered nonempty new
  obtain ⟨routes, children⟩ := tn
  have members : ∀ child, child ∈ (addChild start idx (mk routes children)).children ↔
      child ∈ children ∨ child = (start, mk (routes ++ [idx]) []) := by
    intro child
    refine mem_sortByPrefix.trans ?_
    rw [List.mem_append, List.mem_singleton]
  split
  · rename_i starts
    have none : ∀ child ∈ children, ¬ child.1 <+: path := by
      intro child member childStarts
      refine new child member ?_
      rw [← firstChar_of_starts (ordered_child ordered member).2 childStarts,
        @firstChar_of_starts (start, empty) path nonempty starts,
        ← @firstChar_of_starts (start, empty) start nonempty List.prefix_rfl]
    have before : (mk routes children).find path = routes := find_of_none none
    rw [find_of_child ordered' ((members _).mpr (.inr rfl)) starts, before]
    exact find_of_none fun child impossible => absurd impossible List.not_mem_nil
  · rename_i leaves
    rcases child_or_none (mk routes children) path with ⟨child, member, starts⟩ | none
    · rw [find_of_child ordered member starts,
        find_of_child ordered' ((members child).mpr (.inl member)) starts]
    · rw [find_of_none none]
      refine find_of_none fun child member => ?_
      rcases (members child).mp member with old | rfl
      · exact none child old
      · exact leaves

end Sorting

section Replace

variable {routes : List ℕ} {before after : List Child} {old new : Child} {path : List Char}

/-- A child with another of the same first character in its place. -/
theorem ordered_replace (ordered : (mk routes (before ++ old :: after)).Ordered)
    (nonempty : new.1 ≠ []) (same : firstChar new = firstChar old) (below : new.2.Ordered) :
    (mk routes (before ++ new :: after)).Ordered := by
  obtain ⟨allNonempty, sorted, allBelow⟩ := ordered
  have others : ∀ child ∈ before ++ new :: after, child = new ∨ child ∈ before ++ old :: after := by
    intro child member
    simp only [List.mem_append, List.mem_cons] at member ⊢
    tauto
  refine ⟨fun child member => ?_, ?_, fun child member => ?_⟩
  · rcases others child member with rfl | other
    · exact nonempty
    · exact allNonempty child other
  · simpa only [List.pairwise_append, List.pairwise_cons, List.mem_cons, forall_eq_or_imp, same]
      using sorted
  · rcases others child member with rfl | other
    · exact below
    · exact allBelow child other

/-- A path goes on at the child in whose place another stands only when it has a
prefix with the same first character. -/
theorem find_replace {tn : TrieNode} (members : ∀ child, child ∈ tn.children ↔
      child ∈ before ++ new :: after) (sameRoutes : tn.routes = routes) (ordered' : tn.Ordered)
    (ordered : (mk routes (before ++ old :: after)).Ordered) (shorter : new.1 <+: old.1) :
    tn.find path =
      if new.1 <+: path then new.2.find (path.drop new.1.length)
      else (mk routes (before ++ old :: after)).find path := by
  split
  · rename_i starts
    exact find_of_child ordered' ((members new).mpr (by simp)) starts
  · rename_i leaves
    have oldLeaves : ¬ old.1 <+: path := fun starts => leaves (shorter.trans starts)
    -- no other child is replaced
    have same : ∀ child, child.1 <+: path →
        (child ∈ tn.children ↔ child ∈ before ++ old :: after) := by
      intro child starts
      have notNew : child ≠ new := fun is => leaves (is ▸ starts)
      have notOld : child ≠ old := fun is => oldLeaves (is ▸ starts)
      rw [members]
      simp [notNew, notOld]
    rcases child_or_none tn path with ⟨child, member, starts⟩ | none
    · rw [find_of_child ordered' member starts,
        find_of_child ordered ((same child starts).mp member) starts]
    · have ends : (mk routes (before ++ old :: after)).find path = routes :=
        find_of_none fun child member starts => none child ((same child starts).mpr member) starts
      rw [find_of_none none, sameRoutes, ends]

end Replace

section Add

variable {tn : TrieNode} {start path : List Char} {idx : ℕ}

theorem longestPrefix_prefix (first second : List Char) :
    longestPrefix first second <+: first ∧ longestPrefix first second <+: second := by
  induction first generalizing second with
  | nil => simp [longestPrefix]
  | cons a first ih =>
      cases second with
      | nil => simp [longestPrefix]
      | cons b second =>
          rw [longestPrefix]
          split
          · rename_i same
            subst same
            exact ⟨List.cons_prefix_cons.mpr ⟨rfl, (ih second).1⟩,
              List.cons_prefix_cons.mpr ⟨rfl, (ih second).2⟩⟩
          · exact ⟨List.nil_prefix, List.nil_prefix⟩

/-- A prefix with something after it. -/
theorem starts_iff_drop {first whole : List Char} (starts : first <+: whole)
    (startsPath : first <+: path) :
    whole.drop first.length <+: path.drop first.length ↔ whole <+: path := by
  obtain ⟨rest, rfl⟩ := starts
  obtain ⟨more, rfl⟩ := startsPath
  simp [List.prefix_append_right_inj]

/-- The prefix starts a new child when none has its first character. -/
theorem addWithin_new {steps : ℕ} {ch : Char} {rest : List Char}
    (new : ∀ child ∈ tn.children, firstChar child ≠ ch) :
    addWithin (steps + 1) (ch :: rest) idx tn = addChild (ch :: rest) idx tn := by
  obtain ⟨routes, children⟩ := tn
  rw [addWithin]
  cases found : children[searchKey firstChar children ch]? with
  | none => rfl
  | some child => exact if_pos (new child (List.mem_of_getElem? found))

/-- What an edge leads to, when it is split after some of its prefix. -/
def splitEdge (routes : List ℕ) (old : Child) (lp : List Char) : TrieNode :=
  if old.1 = lp then old.2 else mk routes [(old.1.drop lp.length, old.2)]

/-- What stands in the place of the child with the first character of the prefix. -/
def replacement (steps : ℕ) (start : List Char) (idx : ℕ) (routes : List ℕ) (old : Child) :
    Child :=
  let lp := longestPrefix start old.1
  (lp, addWithin steps (start.drop lp.length) idx (splitEdge routes old lp))

theorem addWithin_old {idx steps : ℕ} {ch : Char} {rest : List Char} {routes : List ℕ}
    {before after : List Child} {old : Child}
    (ordered : (mk routes (before ++ old :: after)).Ordered) (same : firstChar old = ch) :
    ∃ children, addWithin (steps + 1) (ch :: rest) idx (mk routes (before ++ old :: after)) =
        mk routes children ∧
      (children = before ++ replacement steps (ch :: rest) idx routes old :: after ∨
        children = sortByPrefix
          (before ++ replacement steps (ch :: rest) idx routes old :: after)) := by
  have sorted : (before ++ old :: after).Pairwise fun a b => firstChar a < firstChar b := by
    cases ordered
    assumption
  have place : searchKey firstChar (before ++ old :: after) ch = before.length :=
    searchKey_eq sorted (by simp) (by simpa using same)
  have found : (before ++ old :: after)[before.length]? = some old := by simp
  have put : ∀ new, (before ++ old :: after).set before.length new = before ++ new :: after := by
    intro new
    simp
  simp only [addWithin, place, found, put, same, ne_eq, not_true, if_false, replacement, splitEdge]
  by_cases whole : old.1 = longestPrefix (ch :: rest) old.1
  · rw [if_pos whole, if_pos whole, ← whole]
    exact ⟨_, rfl, .inl rfl⟩
  · rw [if_neg whole, if_neg whole]
    exact ⟨_, rfl, .inr rfl⟩

/-- Two prefixes that start with one character have it in common. -/
theorem longestPrefix_ne_nil {ch : Char} {rest : List Char} {old : Child} (nonempty : old.1 ≠ [])
    (same : firstChar old = ch) : longestPrefix (ch :: rest) old.1 ≠ [] := by
  obtain ⟨_ | ⟨d, more⟩, node⟩ := old
  · exact absurd rfl nonempty
  · obtain rfl : d = ch := same
    simp [longestPrefix]

/-- Only one child has a prefix with a first character. -/
theorem eq_of_firstChar (ordered : tn.Ordered) {first second : Child}
    (firstMember : first ∈ tn.children) (secondMember : second ∈ tn.children)
    (same : firstChar first = firstChar second) : first = second := by
  obtain ⟨-, sorted, -⟩ := ordered
  have foundFirst := getElem?_searchKey sorted firstMember rfl
  have foundSecond := getElem?_searchKey sorted secondMember same.symm
  exact Option.some.inj (foundFirst.symm.trans foundSecond)

theorem ordered_sortByPrefix {routes : List ℕ} {children : List Child}
    (ordered : (mk routes children).Ordered) : (mk routes (sortByPrefix children)).Ordered := by
  obtain ⟨nonempty, sorted, below⟩ := ordered
  exact ⟨fun child member => nonempty child (mem_sortByPrefix.mp member),
    sorted_sortByPrefix nonempty (sorted.imp ne_of_lt),
    fun child member => below child (mem_sortByPrefix.mp member)⟩

section SplitEdge

variable {old : Child} {lp : List Char}

theorem ordered_splitEdge (below : old.2.Ordered) (starts : lp <+: old.1) (routes : List ℕ) :
    (splitEdge routes old lp).Ordered := by
  rw [splitEdge]
  split
  · exact below
  · rename_i more
    refine ⟨?_, List.pairwise_singleton _ _, ?_⟩
    · rintro child member
      rw [List.mem_singleton.mp member]
      intro whole
      exact more (starts.eq_of_length_le (List.drop_eq_nil_iff.mp whole)).symm
    · rintro child member
      rw [List.mem_singleton.mp member]
      exact below

/-- A path goes on below a split edge as it did along the edge. -/
theorem find_splitEdge (ordered : tn.Ordered) (member : old ∈ tn.children) (starts : lp <+: old.1)
    (nonempty : lp ≠ []) (startsPath : lp <+: path) :
    (splitEdge tn.routes old lp).find (path.drop lp.length) = tn.find path := by
  obtain ⟨below, oldNonempty⟩ := ordered_child ordered member
  rw [splitEdge]
  split
  · rename_i whole
    rw [find_of_child ordered member (whole ▸ startsPath), whole]
  · rename_i more
    have split := ordered_splitEdge below starts tn.routes
    rw [splitEdge, if_neg more] at split
    by_cases goesOn : old.1 <+: path
    · rw [find_of_child ordered member goesOn, find_of_child split List.mem_cons_self
        ((starts_iff_drop starts startsPath).mpr goesOn), List.drop_drop, List.length_drop]
      rw [Nat.add_sub_cancel' starts.length_le]
    · have here : tn.find path = tn.routes := by
        refine find_of_none fun child isChild childStarts => goesOn ?_
        have childFirst := firstChar_of_starts (ordered_child ordered isChild).2 childStarts
        have pathFirst := @firstChar_of_starts (lp, empty) path nonempty startsPath
        have oldFirst := firstChar_of_starts oldNonempty List.prefix_rfl
        have lpFirst := @firstChar_of_starts (lp, empty) old.1 nonempty starts
        have same : firstChar child = firstChar old := by
          rw [← Option.some.injEq, ← childFirst, ← oldFirst, lpFirst, pathFirst]
        exact eq_of_firstChar ordered isChild member same ▸ childStarts
      rw [here]
      refine find_of_none fun child isChild childStarts => goesOn ?_
      rw [List.mem_singleton.mp isChild] at childStarts
      exact (starts_iff_drop starts startsPath).mp childStarts

end SplitEdge

/-- One more route along the edge of a child, when it can be added below. -/
theorem addWithin_old_spec (ordered : tn.Ordered) {steps : ℕ} {ch : Char} {rest : List Char}
    (enough : (ch :: rest).length ≤ steps + 1) {old : Child} (member : old ∈ tn.children)
    (same : firstChar old = ch)
    (ih : ∀ {tn : TrieNode} {start : List Char}, tn.Ordered → start.length ≤ steps →
      (addWithin steps start idx tn).Ordered ∧ ∀ path,
        (addWithin steps start idx tn).find path =
          if start <+: path then tn.find path ++ [idx] else tn.find path) :
    (addWithin (steps + 1) (ch :: rest) idx tn).Ordered ∧ ∀ path,
      (addWithin (steps + 1) (ch :: rest) idx tn).find path =
        if ch :: rest <+: path then tn.find path ++ [idx] else tn.find path := by
  obtain ⟨below, oldNonempty⟩ := ordered_child ordered member
  obtain ⟨routes, children⟩ := tn
  obtain ⟨before, after, rfl⟩ := List.append_of_mem (show old ∈ children from member)
  obtain ⟨children, added, which⟩ := @addWithin_old idx steps ch rest routes before after old
    ordered same
  obtain ⟨starts, oldStarts⟩ := longestPrefix_prefix (ch :: rest) old.1
  have nonempty := @longestPrefix_ne_nil ch rest old oldNonempty same
  set lp := longestPrefix (ch :: rest) old.1 with lpIs
  have positive := List.length_pos_of_ne_nil nonempty
  obtain ⟨newOrdered, newFind⟩ := @ih (splitEdge routes old lp) ((ch :: rest).drop lp.length)
    (ordered_splitEdge below oldStarts routes) (by rw [List.length_drop]; omega)
  set new := replacement steps (ch :: rest) idx routes old with newIs
  have newFirst : firstChar new = firstChar old := by
    have first := @firstChar_of_starts (lp, empty) old.1 nonempty oldStarts
    have oldFirst := firstChar_of_starts oldNonempty List.prefix_rfl
    exact Option.some.inj (first.symm.trans oldFirst)
  have replaced := ordered_replace ordered (show new.1 ≠ [] from nonempty) newFirst newOrdered
  have result : (mk routes children).Ordered ∧
      ∀ child, child ∈ children ↔ child ∈ before ++ new :: after := by
    rcases which with rfl | rfl
    · exact ⟨replaced, fun child => Iff.rfl⟩
    · exact ⟨ordered_sortByPrefix replaced, fun child => mem_sortByPrefix⟩
  rw [added]
  refine ⟨result.1, fun path => ?_⟩
  rw [@find_replace routes before after old new path (mk routes children) result.2 rfl result.1
    ordered oldStarts]
  split
  · rename_i startsPath
    have along := find_splitEdge ordered member oldStarts nonempty startsPath
    refine (newFind (path.drop lp.length)).trans ?_
    rw [show (splitEdge routes old lp).find (path.drop lp.length) = _ from along]
    exact if_congr (starts_iff_drop starts startsPath) rfl rfl
  · rename_i leaves
    rw [if_neg fun whole => leaves (starts.trans whole)]

/-- **The trie with one more route** is ordered, and has the route below its
prefix. -/
theorem addWithin_spec (ordered : tn.Ordered) {steps : ℕ} (enough : start.length ≤ steps) :
    (addWithin steps start idx tn).Ordered ∧ ∀ path,
      (addWithin steps start idx tn).find path =
        if start <+: path then tn.find path ++ [idx] else tn.find path := by
  induction steps generalizing tn start with
  | zero =>
      obtain rfl := List.eq_nil_of_length_eq_zero (Nat.le_zero.mp enough)
      exact ⟨ordered_addHere ordered, fun path => by
        rw [if_pos List.nil_prefix]
        exact find_addHere ordered path⟩
  | succ steps ih =>
      cases start with
      | nil =>
          exact ⟨ordered_addHere ordered, fun path => by
            rw [if_pos List.nil_prefix]
            exact find_addHere ordered path⟩
      | cons ch rest =>
          by_cases known : ∃ child ∈ tn.children, firstChar child = ch
          · obtain ⟨old, member, same⟩ := known
            exact addWithin_old_spec ordered enough member same fun ordered enough =>
              ih ordered enough
          · have new : ∀ child ∈ tn.children, firstChar child ≠ ch :=
              fun child member same => known ⟨child, member, same⟩
            have new' : ∀ child ∈ tn.children,
                some (firstChar child) ≠ (ch :: rest).head? := by simpa using new
            rw [addWithin_new new]
            exact ⟨ordered_addChild ordered (List.cons_ne_nil ch rest) new',
              find_addChild ordered (List.cons_ne_nil ch rest) new'⟩

/-- **A route that is added** is found by exactly the paths that have its prefix,
after what they found before. -/
theorem find_add (ordered : tn.Ordered) (start : List Char) (idx : ℕ) (path : List Char) :
    (tn.add start idx).find path =
      if start <+: path then tn.find path ++ [idx] else tn.find path :=
  (addWithin_spec ordered le_rfl).2 path

theorem ordered_add (ordered : tn.Ordered) (start : List Char) (idx : ℕ) :
    (tn.add start idx).Ordered :=
  (addWithin_spec ordered le_rfl).1

end Add

end TrieNode

end DawnPatrol.Goji
