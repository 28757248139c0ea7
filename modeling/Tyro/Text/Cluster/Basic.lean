import Tyro.Text.Cluster.Break

/-!
# Clusters

A text is cut into clusters, the extended grapheme clusters of Unicode: what a reader takes for one
character each. A character joins the cluster before it or begins one of its own, and which of the
two depends on that cluster and on the class of the character alone. `flatten_clusters` says that
the clusters make up the text.
-/

namespace Tyro.Text.Cluster

namespace BreakClass

/-- Whether a character of this class stands alone, but for the two of a line end. -/
def standsAlone : BreakClass → Bool
  | .carriageReturn | .lineFeed | .control => true
  | _ => false

/-- Whether a character of this class goes with whatever is before it. -/
def leansBack : BreakClass → Bool
  | .extend | .joiner | .spacing => true
  | _ => false

/-- Whether two neighbours of these classes are parts of one Hangul syllable. -/
def inSyllable : BreakClass → BreakClass → Bool
  | .lead, .lead | .lead, .vowel | .lead, .openSyllable | .lead, .closedSyllable => true
  | .openSyllable, .vowel | .openSyllable, .tail | .vowel, .vowel | .vowel, .tail => true
  | .closedSyllable, .tail | .tail, .tail => true
  | _, _ => false

end BreakClass

/-- Whether a cluster, its last character first, ends in the first letter of a flag. -/
def endsInHalfFlag (cluster : List Char) : Bool :=
  (cluster.takeWhile fun c => breakClass c = .regional).length % 2 = 1

/-- Whether a cluster, its last character first, ends in a picture with a joiner after it. -/
def endsInJoinedPictograph : List Char → Bool
  | [] => false
  | last :: earlier =>
    breakClass last = .joiner &&
      ((earlier.dropWhile fun c => breakClass c = .extend).head?.map breakClass) = some .pictograph

/-- Whether a cluster, its last character first, ends in a consonant with a linking mark on it. -/
def endsInLinkedConsonant (cluster : List Char) : Bool :=
  (cluster.takeWhile isConjunctMark).any isLinker &&
    ((cluster.dropWhile isConjunctMark).head?.map breakClass) = some .consonant

/-- Whether a character joins the cluster before it, which has its last character first. -/
def joins (cluster : List Char) (c : Char) : Bool :=
  match cluster.head? with
  | none => false
  | some last =>
    let before := breakClass last
    let after := breakClass c
    if before.standsAlone || after.standsAlone then
      before = .carriageReturn && after = .lineFeed
    else
      after.leansBack || before = .prepending || before.inSyllable after ||
        (after = .regional && endsInHalfFlag cluster) ||
        (after = .pictograph && endsInJoinedPictograph cluster) ||
        (after = .consonant && endsInLinkedConsonant cluster)

/-- Adds a character to the clusters before it. Both the clusters and the characters in them are
given with the last one first. -/
def push (clusters : List (List Char)) (c : Char) : List (List Char) :=
  match clusters with
  | [] => [[c]]
  | cluster :: earlier =>
    if joins cluster c then (c :: cluster) :: earlier else [c] :: cluster :: earlier

end Cluster

/-- The clusters of a text. -/
def clusters (cs : List Char) : List (List Char) :=
  ((cs.foldl Cluster.push []).map List.reverse).reverse

theorem Cluster.flatten_push (clusters : List (List Char)) (c : Char) :
    (push clusters c).flatten = c :: clusters.flatten := by
  unfold push
  split
  · simp
  · split <;> simp

theorem Cluster.flatten_foldl_push (cs : List Char) (clusters : List (List Char)) :
    (cs.foldl push clusters).flatten = cs.reverse ++ clusters.flatten := by
  induction cs generalizing clusters with
  | nil => simp
  | cons c cs ih => simp [ih, flatten_push]

theorem Cluster.flatten_reverse_map_reverse (clusters : List (List Char)) :
    ((clusters.map List.reverse).reverse).flatten = clusters.flatten.reverse := by
  induction clusters with
  | nil => simp
  | cons cluster clusters ih => simp [ih]

/-- The clusters of a text make it up. -/
theorem flatten_clusters (cs : List Char) : (clusters cs).flatten = cs := by
  simp [clusters, Cluster.flatten_reverse_map_reverse, Cluster.flatten_foldl_push]

end Tyro.Text
