import StrategyGraph.Market.Bar
import StrategyGraph.Strategy.Basic

/-!
# Sets of series

A set of series gives a sequence of values to each of its keys: price columns
under the keys of the columns and indicator values under the keys of the
indicator series. Values may be quantities of any type.

A strategy can run on a set that has every series it needs, all as long as the
closes. The closes themselves are always needed.
-/

namespace StrategyGraph

/-- Sequences of values by key, each key once. -/
structure SeriesSet (Value : Type) where
  entries : List (String × Array Value)

/-- Why a strategy cannot run on a set of series. -/
inductive SeriesError where
  | missing (keys : List String)
  | lengthMismatch (key : String) (found expected : Nat)
  deriving DecidableEq

namespace SeriesError

/-- Wording of a failed requirement. -/
def message : SeriesError -> String
  | .missing keys => "missing series: " ++ String.intercalate ", " keys
  | .lengthMismatch key found expected =>
      "series `" ++ key ++ "` has " ++ found.repr ++ " values, expected " ++
        expected.repr

end SeriesError

namespace Strategy

/-- Keys of the series a strategy needs: the closes, then what its actions read,
then what it lists, each key once. -/
def neededKeys (strategy : Strategy) : List String :=
  (Column.close.key ::
    (strategy.actions.flatMap (fun rule => rule.predicate.seriesKeys) ++
      strategy.indicators.map IndicatorSeries.key)).eraseDups

end Strategy

namespace SeriesSet

/-- The set without series. -/
def empty : SeriesSet Value := ⟨[]⟩

/-- Put values under a key, in place of any earlier ones. -/
def insertEntry (key : String) (values : Array Value) :
    List (String × Array Value) -> List (String × Array Value)
  | [] => [(key, values)]
  | entry :: rest =>
      if entry.1 = key then (key, values) :: rest
      else entry :: insertEntry key values rest

/-- Put values under a key, in place of any earlier ones. -/
def insert (set : SeriesSet Value) (key : String) (values : Array Value) :
    SeriesSet Value :=
  ⟨insertEntry key values set.entries⟩

/-- The values of a key. -/
def series? (set : SeriesSet Value) (key : String) : Option (Array Value) :=
  set.entries.lookup key

/-- The value of a key at a bar, if there is one. -/
def value? (set : SeriesSet Value) (key : String) (bar : Nat) : Option Value :=
  (set.series? key).bind fun values => values[bar]?

/-- Whether there is a series of a key. -/
def contains (set : SeriesSet Value) (key : String) : Bool :=
  (set.series? key).isSome

/-- Number of values of a key, zero if there are none. -/
def length (set : SeriesSet Value) (key : String) : Nat :=
  match set.series? key with
  | some values => values.size
  | none => 0

/-- Number of bars: that of the closes. -/
def barCount (set : SeriesSet Value) : Nat :=
  set.length Column.close.key

/-- Number of series. -/
def size (set : SeriesSet Value) : Nat :=
  set.entries.length

/-- The five price columns of a list of bars. -/
def ofBars (bars : List Bar) : SeriesSet Float :=
  Column.all.foldl
    (fun set column =>
      set.insert column.key (bars.map fun bar => bar.column column).toArray)
    empty

/-- Check that a strategy can run on the set: first that no needed series is
missing, then that each is as long as the closes. -/
def checkRequirements (set : SeriesSet Value) (strategy : Strategy) :
    Except SeriesError Unit :=
  let needed := strategy.neededKeys
  let missing := needed.filter fun key => !set.contains key
  if missing.isEmpty then
    needed.forM fun key =>
      let found := set.length key
      if found = set.barCount then .ok ()
      else .error (.lengthMismatch key found set.barCount)
  else .error (.missing missing)

end SeriesSet
end StrategyGraph
