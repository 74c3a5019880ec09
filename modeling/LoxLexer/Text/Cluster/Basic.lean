import LoxLexer.Text.Cluster.Tables

/-!
# Clusters

A reader takes several characters for one where they are shown as one: a letter
with its accents, a syllable block, a pictograph with its modifiers, a pair of
letters that make a flag.  A text falls into such clusters, and where one ends
is decided between two neighbours, knowing what the cluster holds so far.
-/

namespace LoxLexer
namespace Cluster

/-- What a character is to its neighbours. -/
inductive Role where
  | carriageReturn
  | lineFeed
  | control
  | extending
  | joiner
  | spacingMark
  | prepended
  /-- One of the letters that make flags in pairs. -/
  | flagLetter
  | leadingConsonant
  | vowel
  | trailingConsonant
  /-- A syllable block that ends in a vowel. -/
  | openSyllable
  /-- A syllable block that ends in a consonant. -/
  | closedSyllable
  | other
deriving DecidableEq

/-- Whether the number of a character lies between two others. -/
def within (c : Char) (low high : Nat) : Bool :=
  low ≤ c.toNat && c.toNat ≤ high

/-- The role of a character. -/
def Role.ofChar (c : Char) : Role :=
  if c = '\r' then .carriageReturn
  else if c = '\n' then .lineFeed
  else if c.toNat = 0x200d then .joiner
  else if within c 0x1f1e6 0x1f1ff then .flagLetter
  else if within c 0xac00 0xd7a3 then
    if (c.toNat - 0xac00) % 28 = 0 then .openSyllable else .closedSyllable
  else if leadingConsonantRanges.contains c then .leadingConsonant
  else if vowelRanges.contains c then .vowel
  else if trailingConsonantRanges.contains c then .trailingConsonant
  else if controlRanges.contains c then .control
  else if extendingRanges.contains c then .extending
  else if spacingMarkRanges.contains c then .spacingMark
  else if prependedRanges.contains c then .prepended
  else .other

/-- How a cluster that ends so can go on with a pictograph or a consonant. -/
inductive Pending where
  | nothing
  /-- A pictograph, with nothing after it but characters that extend it. -/
  | pictograph
  /-- A pictograph and a joiner: another pictograph joins. -/
  | joinedPictograph
  /-- A consonant, with nothing after it but characters that extend it. -/
  | consonant
  /-- A consonant and a linker: another consonant joins. -/
  | linkedConsonant
deriving DecidableEq

/-- What is known of a cluster that has begun. -/
structure Begun where
  /-- The role of its last character. -/
  last : Role
  /-- How it can go on. -/
  pending : Pending
  /-- Whether it ends in a flag letter that still lacks its partner. -/
  halfFlag : Bool

/-- What a single character leaves pending. -/
def Pending.ofChar (c : Char) : Pending :=
  if pictographRanges.contains c then .pictograph
  else if conjunctConsonantRanges.contains c then .consonant
  else .nothing

/-- What is pending after one more character of the same cluster. -/
def Pending.next (pending : Pending) (c : Char) : Pending :=
  let role := Role.ofChar c
  match pending with
  | .pictograph =>
    if role = .extending then .pictograph
    else if role = .joiner then .joinedPictograph
    else Pending.ofChar c
  | .consonant =>
    if conjunctLinkerRanges.contains c then .linkedConsonant
    else if role = .joiner || (role = .extending && c.toNat ≠ 0x200c) then .consonant
    else Pending.ofChar c
  | .linkedConsonant =>
    if role = .joiner || (role = .extending && c.toNat ≠ 0x200c) then .linkedConsonant
    else Pending.ofChar c
  | .nothing | .joinedPictograph => Pending.ofChar c

namespace Begun

/-- The cluster that a character begins. -/
def ofChar (c : Char) : Begun :=
  let role := Role.ofChar c
  ⟨role, Pending.ofChar c, role = .flagLetter⟩

/-- The cluster with one more character. -/
def next (begun : Begun) (c : Char) : Begun :=
  let role := Role.ofChar c
  ⟨role, begun.pending.next c, role = .flagLetter && !begun.halfFlag⟩

/-- Whether a character goes on with a cluster. -/
def joins (begun : Begun) (c : Char) : Bool :=
  match begun.last, Role.ofChar c with
  | .carriageReturn, .lineFeed => true
  | .carriageReturn, _ | .lineFeed, _ | .control, _ => false
  | _, .carriageReturn | _, .lineFeed | _, .control => false
  | .leadingConsonant, .leadingConsonant | .leadingConsonant, .vowel
  | .leadingConsonant, .openSyllable | .leadingConsonant, .closedSyllable => true
  | .openSyllable, .vowel | .openSyllable, .trailingConsonant
  | .vowel, .vowel | .vowel, .trailingConsonant => true
  | .closedSyllable, .trailingConsonant
  | .trailingConsonant, .trailingConsonant => true
  | _, .extending | _, .joiner | _, .spacingMark => true
  | .prepended, _ => true
  | .flagLetter, .flagLetter => begun.halfFlag
  | _, _ =>
    (begun.pending = .linkedConsonant && conjunctConsonantRanges.contains c) ||
      (begun.pending = .joinedPictograph && pictographRanges.contains c)

end Begun

/-- The clusters of a text whose first cluster has begun; the characters of that
cluster are given last first. -/
def splitFrom (begun : Begun) (cluster : List Char) : List Char → List (List Char)
  | [] => [cluster.reverse]
  | c :: others =>
    if begun.joins c then
      splitFrom (begun.next c) (c :: cluster) others
    else
      cluster.reverse :: splitFrom (Begun.ofChar c) [c] others

/-- The clusters of a text. -/
def split : List Char → List (List Char)
  | [] => []
  | c :: others => splitFrom (Begun.ofChar c) [c] others

/-- The clusters of a text that has begun make it up. -/
theorem flatten_splitFrom
    (begun : Begun) (cluster text : List Char) :
    (splitFrom begun cluster text).flatten = cluster.reverse ++ text := by
  induction text generalizing begun cluster with
  | nil => simp [splitFrom]
  | cons c others ih =>
    rw [splitFrom]
    split
    · simp [ih]
    · simp [ih]

/-- The clusters of a text make it up. -/
theorem flatten_split
    (text : List Char) :
    (split text).flatten = text := by
  cases text with
  | nil => rfl
  | cons c others => simp [split, flatten_splitFrom]

end Cluster
end LoxLexer
