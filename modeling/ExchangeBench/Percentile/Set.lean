import ExchangeBench.Percentile
import ExchangeBench.Decimal.Literal
import ExchangeBench.Text.Blank

/-!
# Sets of percentiles

The percentiles asked for: at least one, each once, in the order of the request. The *effective*
percentiles are the baseline followed by the others that were asked for.

* `PercentileSet.ofBinary64s`: a set from doubles, refusing the first that is no percentile.
* `PercentileSet.parse`: a set from a comma-separated list of number literals.
* `PercentileSet.effective`: the percentiles that a report holds.
-/

namespace ExchangeBench

/-- A list with the first occurrence of each element only. -/
def firstOccurrences {α : Type} [DecidableEq α] : List α → List α
  | [] => []
  | a :: r => a :: (firstOccurrences r).filter (· ≠ a)

theorem nodup_firstOccurrences {α : Type} [DecidableEq α] (l : List α) :
    (firstOccurrences l).Nodup := by
  induction l with
  | nil => exact List.nodup_nil
  | cons a r ih =>
    refine List.nodup_cons.2 ⟨fun h => ?_, ih.filter _⟩
    simpa using (List.mem_filter.1 h).2

/-- Percentiles asked for, each once, in the order of the request. -/
structure PercentileSet where
  requested : List Percentile
  nonempty : requested ≠ []
  nodup : requested.Nodup
  deriving DecidableEq

namespace PercentileSet

/-- The set that is used when nothing is asked for. -/
def default : PercentileSet := ⟨Percentile.baseline, by decide, by decide⟩

instance : Inhabited PercentileSet := ⟨default⟩

/-- The set of some percentiles; there is none without a percentile. -/
def ofList? : List Percentile → Option PercentileSet
  | [] => none
  | p :: r => some ⟨firstOccurrences (p :: r), by simp [firstOccurrences],
      nodup_firstOccurrences _⟩

/-- The set of some doubles; the first that is no percentile is refused. -/
def ofBinary64s (xs : List Binary64) : Except BenchError PercentileSet :=
  match xs.mapM Percentile.ofBinary64 with
  | .error e => .error e
  | .ok ps =>
    match ofList? ps with
    | none => .error .emptyPercentiles
    | some s => .ok s

/-- The items of a list at every separator, one more than there are separators. -/
def splitAt (sep : Char) : List Char → List (List Char)
  | [] => [[]]
  | c :: r =>
    if c = sep then [] :: splitAt sep r
    else
      match splitAt sep r with
      | [] => [[c]]
      | item :: items => (c :: item) :: items

/-- The double that an item of a list denotes. White space around the item is ignored. -/
def parseItem (item : List Char) : Except BenchError Binary64 :=
  let cs := Text.trim item
  match Literal.binary64? cs with
  | some x => .ok x
  | none => .error (.invalidPercentile (String.ofList cs))

/-- Reads a comma-separated list. Every item is read before any is checked for its range. -/
def parse (s : String) : Except BenchError PercentileSet :=
  match (splitAt ',' s.toList).mapM parseItem with
  | .error e => .error e
  | .ok xs => ofBinary64s xs

/-- Whether a percentile was asked for. -/
def contains (s : PercentileSet) (p : Percentile) : Bool :=
  s.requested.contains p

/-- Whether a percentile numerically equal to a double was asked for. -/
def containsBinary64 (s : PercentileSet) (x : Binary64) : Bool :=
  match Percentile.ofBinary64? x with
  | some p => s.contains p
  | none => false

/-- The baseline, then the others in the order of the request. -/
def effective (s : PercentileSet) : List Percentile :=
  Percentile.baseline ++ s.requested.filter fun p => !Percentile.baseline.contains p

/-- The values asked for. -/
def values (s : PercentileSet) : List Float :=
  s.requested.map Percentile.value

end PercentileSet
end ExchangeBench
