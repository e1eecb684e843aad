import DawnPatrol.Goji.Router
import Mathlib.Data.List.Forall2
import Mathlib.Data.List.Infix
import Mathlib.Data.List.TakeWhile

/-!
# The patterns of goji

A text such as `/users/:name` is read as literals with named matches between
them, and may end in a wildcard. A named match is greedy: it takes all up to a
slash, or to the character that follows it in the text.

So a path is matched exactly when it is a filling of the pattern: its literals with
values between them that are not empty and have none of the characters that end
them (`matchPath_eq_some`). A request matches when its method is one of the
pattern's, its path is a filling, and the values can be unescaped, and that is what
they are given as (`matchWith_new`). Every pattern keeps its word about the paths
and the methods of its requests (`lawful_toPattern`).
-/

set_option autoImplicit false

namespace DawnPatrol.Goji.Pat

/-! ## Reading a pattern -/

/-- The break characters, which can end a name. -/
def isBreak (c : Char) : Bool := c == '/' || c == '.' || c == ';' || c == ','

/-- A literal and the named match after it, with the break that it expects. -/
structure Segment where
  literal : List Char
  name : List Char
  ending : Char

/-- A pattern: the literals with their named matches, the last literal, and whether
the text ends in a wildcard. -/
structure Pattern where
  methods : Option (List String) := none
  segments : List Segment
  tail : List Char
  wildcard : Bool

/-- The name after a break character and a colon, and what follows it. -/
def namedAt : List Char → Option (List Char × List Char)
  | c :: ':' :: text =>
      let name := text.takeWhile fun c => !isBreak c
      if isBreak c && name ≠ [] then some (name, text.drop name.length) else none
  | _ => none

/-- The segments of a text, of which some has been read as a literal. -/
def segmentsWithin : ℕ → List Char → List Char → List Segment × List Char
  | 0, literal, text => ([], literal ++ text)
  | _, literal, [] => ([], literal)
  | steps + 1, literal, c :: text =>
      match namedAt (c :: text) with
      | some (name, rest) =>
          let found := segmentsWithin steps [] rest
          (⟨literal ++ [c], name, rest.headD '/'⟩ :: found.1, found.2)
      | none => segmentsWithin steps (literal ++ [c]) text

/-- `New`. -/
def new (pat : List Char) : Pattern :=
  let wildcard := "/*".toList.isSuffixOf pat
  let found := segmentsWithin pat.length [] (if wildcard then pat.dropLast else pat)
  { segments := found.1, tail := found.2, wildcard := wildcard }

/-- `newWithMethods`. -/
def newWithMethods (pat : String) (methods : List String) : Pattern :=
  { new pat.toList with methods := some methods }

/-- `Get`, for `HEAD` as well. -/
def get (pat : String) : Pattern := newWithMethods pat ["GET", "HEAD"]

/-- `Post`. -/
def post (pat : String) : Pattern := newWithMethods pat ["POST"]

/-! ## Matching a request -/

def ishex (c : Char) : Bool :=
  ('0' ≤ c && c ≤ '9') || ('a' ≤ c && c ≤ 'f') || ('A' ≤ c && c ≤ 'F')

def unhex (c : Char) : ℕ :=
  if '0' ≤ c ∧ c ≤ '9' then c.toNat - '0'.toNat
  else if 'a' ≤ c ∧ c ≤ 'f' then c.toNat - 'a'.toNat + 10
  else if 'A' ≤ c ∧ c ≤ 'F' then c.toNat - 'A'.toNat + 10
  else 0

/-- The bytes of an escaped text, unless an escape is not well formed. -/
def unescape : List Char → Option (List ℕ)
  | [] => some []
  | '%' :: a :: b :: text =>
      if ishex a && ishex b then (unescape text).map ((16 * unhex a + unhex b) :: ·) else none
  | c :: text =>
      if c = '%' then none
      else (unescape text).map ((String.utf8EncodeChar c).map UInt8.toNat ++ ·)

/-- What a named match takes: all up to its break, or to a slash. -/
def Segment.value (s : Segment) (path : List Char) : List Char :=
  path.takeWhile fun c => c != s.ending && c != '/'

/-- The values of the named matches, and the rest of the path. -/
def matchSegments : List Segment → List Char → Option (List (List Char) × List Char)
  | [], path => some ([], path)
  | s :: segments, path =>
      if s.literal <+: path then
        let value := s.value (path.drop s.literal.length)
        if value = [] then none
        else (matchSegments segments (path.drop (s.literal.length + value.length))).map
          fun found => (value :: found.1, found.2)
      else none

namespace Pattern

/-- The values in a path, and the path that is left to the patterns of a wildcard's
handler. -/
def matchPath (p : Pattern) (path : List Char) : Option (List (List Char) × List Char) :=
  (matchSegments p.segments path).bind fun found =>
    if p.wildcard then
      if p.tail <+: found.2 then some (found.1, found.2.drop (p.tail.length - 1)) else none
    else if found.2 = p.tail then some (found.1, []) else none

/-- What a request is given when it matches. -/
structure Matched where
  values : List (List ℕ)
  path : List Char

/-- `Match`. -/
def matchWith (p : Pattern) (method : String) (path : List Char) : Option Matched :=
  if p.methods.all fun methods => decide (method ∈ methods) then
    (p.matchPath path).bind fun found =>
      (found.1.mapM unescape).map fun values => ⟨values, found.2⟩
  else none

/-- `PathPrefix`. -/
def pathPrefix (p : Pattern) : List Char :=
  (p.segments.head?.map Segment.literal).getD p.tail

/-- The pattern, to a router. -/
def toPattern {Request : Type} (method : Request → String) (path : Request → List Char)
    (withMatch : Request → Matched → Request) (p : Pattern) : Goji.Pattern Request where
  matchRequest r := (p.matchWith (method r) (path r)).map (withMatch r)
  pathPrefix := some p.pathPrefix
  httpMethods := p.methods

end Pattern

/-! ## Patterns keep their word -/

section Lawful

variable {p : Pattern} {path : List Char} {segments : List Segment}

theorem matchSegments_starts {s : Segment} {found : List (List Char) × List Char}
    (matched : matchSegments (s :: segments) path = some found) : s.literal <+: path := by
  by_contra other
  rw [matchSegments, if_neg other] at matched
  cases matched

theorem pathPrefix_of_matchPath {found : List (List Char) × List Char}
    (matched : p.matchPath path = some found) : p.pathPrefix <+: path := by
  obtain ⟨read, segments, ends⟩ := Option.bind_eq_some_iff.mp matched
  rw [Pattern.pathPrefix]
  cases all : p.segments with
  | cons s rest => exact matchSegments_starts (all ▸ segments)
  | nil =>
      rw [all] at segments
      cases segments
      split at ends
      · exact (Option.ite_none_right_eq_some.mp ends).1
      · obtain ⟨whole, -⟩ := Option.ite_none_right_eq_some.mp ends
        exact whole ▸ List.prefix_rfl

/-- **Every pattern keeps its word** about the requests that it matches. -/
theorem lawful_toPattern {Request : Type} (method : Request → String)
    (path : Request → List Char) (withMatch : Request → Pattern.Matched → Request) (p : Pattern) :
    (p.toPattern method path withMatch).Lawful method path := by
  constructor
  intro r r2 matched
  obtain ⟨given, matched, -⟩ := Option.map_eq_some_iff.mp matched
  rw [Pattern.matchWith] at matched
  split at matched
  · rename_i named
    obtain ⟨found, isPath, -⟩ := Option.bind_eq_some_iff.mp matched
    simp only [Goji.Pattern.admits, Pattern.toPattern, Option.getD_some, Bool.and_eq_true]
    exact ⟨decide_eq_true (pathPrefix_of_matchPath isPath), named⟩
  · cases matched

end Lawful

/-- Users, with their photographs, and a page for everything else. -/
def userRoutes : List (Route (String × List Char) String) :=
  [⟨(get "/users/:name").toPattern Prod.fst Prod.snd fun r _ => r, "profile"⟩,
    ⟨(post "/users/:name").toPattern Prod.fst Prod.snd fun r _ => r, "rename"⟩,
    ⟨(newWithMethods "/users/:name/photos.:format" ["GET"]).toPattern Prod.fst Prod.snd
      fun r _ => r, "photos"⟩,
    ⟨(new "/*".toList).toPattern Prod.fst Prod.snd fun r _ => r, "page"⟩]

theorem lawful_userRoutes :
    ∀ route ∈ userRoutes, route.pattern.Lawful Prod.fst Prod.snd := by
  simp only [userRoutes, List.forall_mem_cons]
  exact ⟨lawful_toPattern _ _ _ _, lawful_toPattern _ _ _ _, lawful_toPattern _ _ _ _,
    lawful_toPattern _ _ _ _, fun _ impossible => absurd impossible List.not_mem_nil⟩

theorem userRoutes_route :
    (Router.ofRoutes userRoutes).route Prod.fst Prod.snd ("GET", "/users/a/photos.png".toList) =
      simpleRoute userRoutes ("GET", "/users/a/photos.png".toList) :=
  route_eq_simple Prod.fst Prod.snd lawful_userRoutes ("GET", "/users/a/photos.png".toList)

/-! ## Patterns without names -/

section Literal

variable {pat : String}

theorem segmentsWithin_of_literal {text : List Char} (plain : ':' ∉ text) (steps : ℕ)
    (literal : List Char) : segmentsWithin steps literal text = ([], literal ++ text) := by
  induction steps generalizing literal text with
  | zero => rfl
  | succ steps ih =>
      cases text with
      | nil => simp [segmentsWithin]
      | cons c text =>
          obtain ⟨-, later⟩ := not_or.mp (List.mem_cons.not.mp plain)
          have unnamed : namedAt (c :: text) = none := by
            cases text with
            | nil => rfl
            | cons d rest =>
                obtain ⟨other, -⟩ := not_or.mp (List.mem_cons.not.mp later)
                rw [namedAt]
                rintro _ _ isColon
                exact other (List.cons.inj (List.cons.inj isColon).2).1.symm
          rw [segmentsWithin, unnamed]
          simp only
          rw [ih later, List.append_assoc, List.singleton_append]

/-- **A pattern without names** and without a wildcard matches its own text, for its
methods. -/
theorem matchWith_literal (plain : ':' ∉ pat.toList)
    (whole : "/*".toList.isSuffixOf pat.toList = false) (methods : List String) (method : String)
    (path : List Char) :
    (newWithMethods pat methods).matchWith method path =
      if method ∈ methods ∧ path = pat.toList then some ⟨[], []⟩ else none := by
  have read : newWithMethods pat methods = ⟨some methods, [], pat.toList, false⟩ := by
    simp only [newWithMethods, new, whole, Bool.false_eq_true, if_false,
      segmentsWithin_of_literal plain, List.nil_append]
  rw [read, Pattern.matchWith]
  by_cases named : method ∈ methods
  · by_cases same : path = pat.toList
    · simp [Pattern.matchPath, matchSegments, named, same]
    · simp [Pattern.matchPath, matchSegments, named, same]
  · simp [named]

end Literal

/-! ## What paths match -/

/-- A value that a named match takes: not empty, and without what ends it. -/
def Segment.Accepts (s : Segment) (value : List Char) : Prop :=
  value ≠ [] ∧ ∀ c ∈ value, c ≠ s.ending ∧ c ≠ '/'

/-- The literals with values between them. -/
def fill : List Segment → List (List Char) → List Char
  | s :: segments, value :: values => s.literal ++ (value ++ fill segments values)
  | _, _ => []

/-- The path is a filling of the pattern with the values. A wildcard takes what follows
the last literal, with the slash before it. -/
def Pattern.Fills (p : Pattern) (values : List (List Char)) (path left : List Char) : Prop :=
  List.Forall₂ Segment.Accepts p.segments values ∧
    if p.wildcard then
      ∃ suffix, path = fill p.segments values ++ (p.tail ++ suffix) ∧ left = '/' :: suffix
    else path = fill p.segments values ++ p.tail ∧ left = []

/-- The literal that comes next. -/
def nextLiteral (segments : List Segment) (tail : List Char) : List Char :=
  (segments.head?.map Segment.literal).getD tail

/-- Each named match ends at the start of the next literal, or at the end. -/
def EndsRight : List Segment → List Char → Prop
  | [], _ => True
  | s :: segments, tail =>
      s.literal ≠ [] ∧ s.ending = (nextLiteral segments tail).headD '/' ∧ EndsRight segments tail

section Fill

variable {segments : List Segment} {tail path rest : List Char} {values : List (List Char)}

theorem matchSegments_literal (s : Segment) (segments : List Segment) (more : List Char) :
    matchSegments (s :: segments) (s.literal ++ more) =
      if s.value more = [] then none
      else (matchSegments segments (more.drop (s.value more).length)).map
        fun found => (s.value more :: found.1, found.2) := by
  simp only [matchSegments, List.prefix_append, if_true, List.drop_left, ← List.drop_drop]

theorem value_append_drop (s : Segment) (path : List Char) :
    s.value path ++ path.drop (s.value path).length = path :=
  (List.prefix_iff_eq_append.mp (List.takeWhile_prefix _))

/-- A named match takes what it accepts, up to what ends it. -/
theorem value_append {s : Segment} {value next : List Char} (accepts : s.Accepts value)
    (ends : next.headD '/' = s.ending ∨ next.headD '/' = '/') :
    s.value (value ++ next) = value := by
  rw [Segment.value, List.takeWhile_append_of_pos]
  · cases next with
    | nil => simp
    | cons c next =>
        have stops : (c != s.ending && c != '/') = false := by
          rcases ends with isEnding | isSlash
          · simp [show c = s.ending from isEnding]
          · simp [show c = '/' from isSlash]
        rw [List.takeWhile_cons_of_neg (by simp [stops]), List.append_nil]
  · intro c member
    obtain ⟨notEnding, notSlash⟩ := accepts.2 c member
    simp [notEnding, notSlash]

/-- What is matched are values between the literals. -/
theorem fill_of_matchSegments (matched : matchSegments segments path = some (values, rest)) :
    List.Forall₂ Segment.Accepts segments values ∧ path = fill segments values ++ rest := by
  induction segments generalizing path values with
  | nil =>
      cases matched
      exact ⟨.nil, rfl⟩
  | cons s segments ih =>
      obtain ⟨more, rfl⟩ := matchSegments_starts matched
      rw [matchSegments_literal] at matched
      obtain ⟨nonempty, matched⟩ := Option.ite_none_left_eq_some.mp matched
      obtain ⟨found, below, isFound⟩ := Option.map_eq_some_iff.mp matched
      obtain ⟨rfl, rfl⟩ := Prod.mk.inj isFound
      obtain ⟨accepted, filled⟩ := ih below
      refine ⟨.cons ⟨nonempty, fun c member => ?_⟩ accepted, ?_⟩
      · have kept := List.mem_takeWhile_imp member
        simpa using kept
      · rw [fill, List.append_assoc, List.append_assoc, ← filled, value_append_drop]

/-- The values between the literals are matched. -/
theorem matchSegments_fill (ends : EndsRight segments tail) (starts : tail <+: rest)
    (whole : tail = [] → rest = []) (accepted : List.Forall₂ Segment.Accepts segments values) :
    matchSegments segments (fill segments values ++ rest) = some (values, rest) := by
  induction accepted with
  | nil => rfl
  | @cons s value segments values first others ih =>
      obtain ⟨literal, ending, ends⟩ := ends
      have next : (fill segments values ++ rest).headD '/' = s.ending := by
        rw [ending]
        cases others with
        | nil =>
            cases tail with
            | nil =>
                rw [whole rfl]
                rfl
            | cons c tail =>
                obtain ⟨more, rfl⟩ := starts
                rfl
        | @cons t _ segments _ _ _ =>
            obtain ⟨c, more, isLiteral⟩ := List.exists_cons_of_ne_nil ends.1
            simp [fill, nextLiteral, isLiteral]
      rw [fill, List.append_assoc, List.append_assoc, matchSegments_literal,
        value_append first (.inl next), if_neg first.1, List.drop_left, ih ends, Option.map_some]

end Fill

/-! ## What patterns are read -/

section New

variable {text name rest : List Char}

/-- A name follows a break character and a colon, and has no break character. -/
theorem namedAt_eq_some (named : namedAt text = some (name, rest)) :
    ∃ c, text = c :: ':' :: (name ++ rest) ∧ name ≠ [] ∧ ∀ d ∈ name, isBreak d = false := by
  rw [namedAt.eq_def] at named
  split at named
  · rename_i c text
    obtain ⟨isName, found⟩ := Option.ite_none_right_eq_some.mp named
    obtain ⟨rfl, rfl⟩ := Prod.mk.inj (Option.some.inj found)
    refine ⟨c, ?_, ?_, fun d member => ?_⟩
    · rw [List.prefix_iff_eq_append.mp (List.takeWhile_prefix _)]
    · simp only [Bool.and_eq_true, decide_eq_true_eq] at isName
      exact isName.2
    · simpa using List.mem_takeWhile_imp member
  · cases named

/-- The first literal starts as the text does. -/
theorem nextLiteral_segmentsWithin (steps : ℕ) (literal text : List Char) :
    (nextLiteral (segmentsWithin steps literal text).1
      (segmentsWithin steps literal text).2).head? = (literal ++ text).head? := by
  induction steps generalizing literal text with
  | zero => rfl
  | succ steps ih =>
      cases text with
      | nil => simp [segmentsWithin, nextLiteral]
      | cons c text =>
          cases found : namedAt (c :: text) with
          | none =>
              simp only [segmentsWithin, found, ih]
              simp
          | some named =>
              simp only [segmentsWithin, found, nextLiteral]
              cases literal <;> rfl

/-- Each name ends where the next literal starts. -/
theorem endsRight_segmentsWithin (steps : ℕ) (literal text : List Char) :
    EndsRight (segmentsWithin steps literal text).1 (segmentsWithin steps literal text).2 := by
  induction steps generalizing literal text with
  | zero => trivial
  | succ steps ih =>
      cases text with
      | nil => trivial
      | cons c text =>
          cases found : namedAt (c :: text) with
          | none =>
              simp only [segmentsWithin, found]
              exact ih _ _
          | some named =>
              simp only [segmentsWithin, found]
              refine ⟨by simp, ?_, ih [] named.2⟩
              have starts := nextLiteral_segmentsWithin steps [] named.2
              rw [List.nil_append] at starts
              rw [List.headD_eq_head?_getD, List.headD_eq_head?_getD, starts]

/-- A slash at the end of the text is at the end of the last literal. -/
theorem tail_segmentsWithin {steps : ℕ} {literal text : List Char}
    (ends : (literal ++ text).getLast? = some '/') :
    (segmentsWithin steps literal text).2.getLast? = some '/' := by
  induction steps generalizing literal text with
  | zero => exact ends
  | succ steps ih =>
      cases text with
      | nil => simpa [segmentsWithin] using ends
      | cons c text =>
          cases found : namedAt (c :: text) with
          | none =>
              simp only [segmentsWithin, found]
              exact ih (by simpa using ends)
          | some named =>
              simp only [segmentsWithin, found]
              obtain ⟨name, rest⟩ := named
              obtain ⟨d, split, nonempty, noBreak⟩ := namedAt_eq_some found
              refine ih ?_
              cases rest with
              | nil =>
                  -- the text would end in a name
                  rw [split, List.append_nil, List.getLast?_append_of_ne_nil _ (by simp)] at ends
                  have last : name.getLast? = some '/' := by
                    rwa [List.getLast?_cons_of_ne_nil (by simp),
                      List.getLast?_cons_of_ne_nil nonempty] at ends
                  have impossible := noBreak '/' (List.mem_of_getLast? last)
                  cases impossible
              | cons e rest =>
                  rw [split, ← List.cons_append, ← List.cons_append, ← List.append_assoc,
                    List.getLast?_append_of_ne_nil _ (List.cons_ne_nil e rest)] at ends
                  exact ends

/-- The literals of a pattern with a wildcard end in a slash. -/
theorem tail_of_wildcard {pat : List Char} (wildcard : (new pat).wildcard = true) :
    ∃ front, (new pat).tail = front ++ ['/'] := by
  have starred : "/*".toList.isSuffixOf pat = true := wildcard
  obtain ⟨front, rfl⟩ := List.isSuffixOf_iff_suffix.mp starred
  have shorter : (front ++ "/*".toList).dropLast = front ++ ['/'] := by
    rw [show "/*".toList = ['/'] ++ ['*'] from rfl, ← List.append_assoc, List.dropLast_concat]
  refine List.getLast?_eq_some_iff.mp ?_
  rw [new]
  refine tail_segmentsWithin ?_
  rw [if_pos starred, shorter]
  simp

/-- **A path is matched** exactly when it is a filling of the pattern. -/
theorem matchPath_eq_some {pat path : List Char} {values : List (List Char)}
    {left : List Char} :
    (new pat).matchPath path = some (values, left) ↔ (new pat).Fills values path left := by
  have ends : EndsRight (new pat).segments (new pat).tail := endsRight_segmentsWithin _ _ _
  rw [Pattern.matchPath, Option.bind_eq_some_iff, Pattern.Fills]
  cases wildcard : (new pat).wildcard with
  | true =>
      simp only [if_true]
      obtain ⟨front, isTail⟩ := tail_of_wildcard wildcard
      have after : ∀ suffix, ((new pat).tail ++ suffix).drop ((new pat).tail.length - 1) =
          '/' :: suffix := by
        intro suffix
        rw [isTail, List.length_append, List.length_singleton, Nat.add_sub_cancel,
          List.append_assoc, List.drop_left]
        rfl
      constructor
      · rintro ⟨⟨found, rest⟩, matched, taken⟩
        obtain ⟨starts, isTaken⟩ := Option.ite_none_right_eq_some.mp taken
        obtain ⟨suffix, rfl⟩ := starts
        obtain ⟨rfl, rfl⟩ := Prod.mk.inj (Option.some.inj isTaken)
        obtain ⟨accepted, filled⟩ := fill_of_matchSegments matched
        exact ⟨accepted, suffix, filled, after suffix⟩
      · rintro ⟨accepted, suffix, rfl, rfl⟩
        refine ⟨_, matchSegments_fill ends (List.prefix_append _ suffix) (fun none => ?_) accepted,
          ?_⟩
        · rw [none] at isTail
          exact absurd isTail.symm (by simp)
        · rw [if_pos (List.prefix_append _ suffix), after]
  | false =>
      simp only [Bool.false_eq_true, if_false]
      constructor
      · rintro ⟨⟨found, rest⟩, matched, taken⟩
        obtain ⟨whole, isTaken⟩ := Option.ite_none_right_eq_some.mp taken
        obtain ⟨rfl, rfl⟩ := Prod.mk.inj (Option.some.inj isTaken)
        obtain ⟨accepted, filled⟩ := fill_of_matchSegments matched
        exact ⟨accepted, filled.trans (congrArg _ whole), rfl⟩
      · rintro ⟨accepted, rfl, rfl⟩
        exact ⟨_, matchSegments_fill ends List.prefix_rfl id accepted, if_pos rfl⟩

/-! ## What requests match -/

theorem unescape_cons {c : Char} (plain : c ≠ '%') (text : List Char) :
    unescape (c :: text) =
      (unescape text).map ((String.utf8EncodeChar c).map UInt8.toNat ++ ·) := by
  rw [unescape]
  · exact if_neg plain
  · rintro a b rest rfl
    exact absurd rfl plain

theorem ne_percent_of_ishex {c : Char} (hex : ishex c = true) : c ≠ '%' := by
  rintro rfl
  cases hex

/-- A percent sign that begins no escape: two hexadecimal digits do not follow. -/
def Malformed (text : List Char) : Prop :=
  ∃ front back, text = front ++ '%' :: back ∧
    ¬ ∃ a b rest, back = a :: b :: rest ∧ ishex a = true ∧ ishex b = true

theorem malformed_cons {c : Char} (plain : c ≠ '%') {text : List Char} :
    Malformed (c :: text) ↔ Malformed text := by
  constructor
  · rintro ⟨front, back, split, bad⟩
    cases front with
    | nil => exact absurd (List.cons.inj split).1 plain
    | cons d front => exact ⟨front, back, (List.cons.inj split).2, bad⟩
  · rintro ⟨front, back, rfl, bad⟩
    exact ⟨c :: front, back, rfl, bad⟩

theorem malformed_escape {a b : Char} (isEscape : ishex a = true ∧ ishex b = true)
    {text : List Char} : Malformed ('%' :: a :: b :: text) ↔ Malformed text := by
  have digits : Malformed (a :: b :: text) ↔ Malformed text :=
    (malformed_cons (ne_percent_of_ishex isEscape.1)).trans
      (malformed_cons (ne_percent_of_ishex isEscape.2))
  rw [← digits]
  constructor
  · rintro ⟨front, back, split, bad⟩
    cases front with
    | nil => exact absurd ⟨a, b, text, (List.cons.inj split).2.symm, isEscape⟩ bad
    | cons d front => exact ⟨front, back, (List.cons.inj split).2, bad⟩
  · rintro ⟨front, back, split, bad⟩
    exact ⟨'%' :: front, back, congrArg _ split, bad⟩

/-- **A text cannot be unescaped** exactly when a percent sign in it begins no escape. -/
theorem unescape_eq_none_iff {text : List Char} : unescape text = none ↔ Malformed text := by
  induction text using unescape.induct with
  | case1 => simp [unescape, Malformed]
  | case2 a b text isEscape ih =>
      rw [unescape, if_pos isEscape, Option.map_eq_none_iff, ih,
        malformed_escape (by simpa using isEscape)]
  | case3 a b text notEscape =>
      rw [unescape, if_neg notEscape]
      refine iff_of_true rfl ⟨[], a :: b :: text, rfl, ?_⟩
      rintro ⟨_, _, _, same, isEscape⟩
      cases same
      exact notEscape (by simpa using isEscape)
  | case4 text short =>
      refine iff_of_true ?_ ⟨[], text, rfl, ?_⟩
      · rw [unescape]
        · exact if_pos rfl
        · exact fun a b rest _ isText => short a b rest rfl isText
      · rintro ⟨a, b, rest, rfl, -⟩
        exact short a b rest rfl rfl
  | case5 c text _ plain ih =>
      rw [unescape_cons plain, Option.map_eq_none_iff, ih, malformed_cons plain]

theorem mapM_eq_some {α β : Type} {f : α → Option β} {xs : List α} {ys : List β} :
    xs.mapM f = some ys ↔ List.Forall₂ (fun x y => f x = some y) xs ys := by
  induction xs generalizing ys with
  | nil => simp [eq_comm]
  | cons x xs ih =>
      cases ys <;> simp [List.mapM_cons, Option.bind_eq_some_iff, ih]

theorem exists_mapM_iff {α β : Type} {f : α → Option β} {xs : List α} :
    (∃ ys, xs.mapM f = some ys) ↔ ∀ x ∈ xs, f x ≠ none := by
  induction xs with
  | nil => simp
  | cons x xs ih =>
      rw [List.forall_mem_cons, ← ih, Option.ne_none_iff_exists']
      simp only [List.mapM_cons, Option.bind_eq_bind, Option.pure_def, Option.bind_eq_some_iff]
      constructor
      · rintro ⟨_, y, isY, ys, areYs, -⟩
        exact ⟨⟨y, isY⟩, ys, areYs⟩
      · rintro ⟨⟨y, isY⟩, ys, areYs⟩
        exact ⟨y :: ys, y, isY, ys, areYs, rfl⟩

/-- A match is a filling whose values can be unescaped, when the method is allowed. -/
theorem matchWith_eq_some {pat path : List Char} {methods : Option (List String)}
    {method : String} {matched : Pattern.Matched} :
    ({ new pat with methods := methods } : Pattern).matchWith method path = some matched ↔
      (∀ allowed ∈ methods, method ∈ allowed) ∧ ∃ values,
        (new pat).Fills values path matched.path ∧
          values.mapM unescape = some matched.values := by
  have named : (methods.all fun allowed => decide (method ∈ allowed)) = true ↔
      ∀ allowed ∈ methods, method ∈ allowed := by
    cases methods <;> simp
  rw [Pattern.matchWith, Option.ite_none_right_eq_some, named]
  refine and_congr_right fun _ => ?_
  rw [Option.bind_eq_some_iff]
  constructor
  · rintro ⟨⟨values, left⟩, isPath, given⟩
    obtain ⟨bytes, unescaped, rfl⟩ := Option.map_eq_some_iff.mp given
    exact ⟨values, matchPath_eq_some.mp isPath, unescaped⟩
  · rintro ⟨values, fills, unescaped⟩
    refine ⟨(values, matched.path), matchPath_eq_some.mpr fills, ?_⟩
    rw [Option.map_eq_some_iff]
    exact ⟨matched.values, unescaped, rfl⟩

/-- **A request matches** exactly when its method is one of the pattern's, if these are
restricted, and its path is a filling of the pattern in whose values every percent sign
begins an escape. It is given the unescaped values, and the rest of the path. -/
theorem matchWith_new (pat path : List Char) (methods : Option (List String))
    (method : String) :
    ((({ new pat with methods := methods } : Pattern).matchWith method path).isSome = true ↔
      (∀ allowed ∈ methods, method ∈ allowed) ∧ ∃ values rest,
        (new pat).Fills values path rest ∧ ∀ value ∈ values, ¬ Malformed value) ∧
    ∀ matched, ({ new pat with methods := methods } : Pattern).matchWith method path =
        some matched →
      ∃ values, (new pat).Fills values path matched.path ∧
        List.Forall₂ (fun value bytes => unescape value = some bytes) values matched.values := by
  constructor
  · have canUnescape : ∀ values : List (List Char),
        (∀ value ∈ values, ¬ Malformed value) ↔ ∃ bytes, values.mapM unescape = some bytes := by
      intro values
      simp only [exists_mapM_iff, ne_eq, unescape_eq_none_iff]
    rw [Option.isSome_iff_exists]
    simp only [matchWith_eq_some, canUnescape]
    constructor
    · rintro ⟨matched, allows, values, fills, unescaped⟩
      exact ⟨allows, values, matched.path, fills, matched.values, unescaped⟩
    · rintro ⟨allows, values, rest, fills, bytes, unescaped⟩
      exact ⟨⟨bytes, rest⟩, allows, values, fills, unescaped⟩
  · intro matched isMatch
    obtain ⟨-, values, fills, unescaped⟩ := matchWith_eq_some.mp isMatch
    exact ⟨values, fills, mapM_eq_some.mp unescaped⟩

end New

end DawnPatrol.Goji.Pat
