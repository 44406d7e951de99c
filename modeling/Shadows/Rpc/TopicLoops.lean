import Shadows.Rpc.Filters
import Shadows.Foundations.Loops

/-!
# The loops of `filter_topics`

The loop over the flat topics and the one that drops the wildcards at the end of a flat topic, turn by
turn. A turn has no result if it panics, or if the inner loop does not end within the turns that it has.
-/

namespace Shadows.Rpc.FilteredParams

open Foundations

/-- A turn of `while new_multi.iter().last().unwrap_or(&Some(H256::default())).is_none()`. The last of
no items counts as a topic. -/
def shrinkTurn (newMulti : List (Option H256)) : Turn (List (Option H256)) (List (Option H256)) :=
  if (newMulti.getLast?.getD (some 0)).isNone then .next newMulti.dropLast else .exit newMulti

/-- A turn of the loop over the flat topics that are left, with `out`. -/
def filterTopicsTurn (log : Log) (turns : ℕ) :
    List FlatTopic × Bool → Turn (List FlatTopic × Bool) (Option Bool)
  | ([], out) => .exit (some out)
  | (.single (some single) :: rest, out) =>
    .next (rest, if [single].isPrefixOf log.topics then out else false)
  | (.single none :: rest, out) => .next (rest, out)
  | (.multiple multi :: rest, out) =>
    match loop shrinkTurn turns multi with
    | none => .exit none
    | some newMulti =>
      if log.topics.length < newMulti.length then .exit (some false)
      else match replace log (.multiple newMulti) with
        | none => .exit none
        | some none => .next (rest, out)
        | some (some replaced) =>
          if replaced.isPrefixOf log.topics then .exit (some true) else .next (rest, false)
  | (.null :: rest, _) => .next (rest, true)

/-- `filter_topics`, with so many turns for each of its loops. -/
def filterTopicsWithin (params : FilteredParams) (log : Log) (turns : ℕ) : Option Bool :=
  (loop (filterTopicsTurn log turns) turns (params.flatTopics, true)).join

/-- The length of the longest flat topic. -/
def longestTopic (flatTopics : List FlatTopic) : ℕ :=
  (flatTopics.map fun
    | .multiple multi => multi.length
    | _ => 0).foldr max 0

end Shadows.Rpc.FilteredParams
