/-
The filters that are defined by other filters.
-/
import ApiTypings.Query.Parser
import ApiTypings.Query.Scope

namespace ApiTypings.Query.Prelude

/-- The definitions, each of which may use those before it. -/
def lines : List String := [
  "def error(f): f | error;",
  "def map(f): [.[] | f];",
  "def map_values(f): .[] |= f;",
  "def select(f): if f then . else empty end;",
  "def recurse(f): def rec: ., (f | rec); rec;",
  "def recurse: recurse(.[]?);",
  "def recurse(f; cond): recurse(f | select(cond));",
  "def recurse_down: recurse;",
  "def isboolean: type == \"boolean\";",
  "def isnumber: type == \"number\";",
  "def isstring: type == \"string\";",
  "def isarray: type == \"array\";",
  "def isobject: type == \"object\";",
  "def values: select(. != null);",
  "def nulls: select(. == null);",
  "def booleans: select(isboolean);",
  "def numbers: select(isnumber);",
  "def strings: select(isstring);",
  "def arrays: select(isarray);",
  "def objects: select(isobject);",
  "def iterables: select(isarray or isobject);",
  "def scalars: select((isarray or isobject) | not);",
  "def isnan: . < nan and nan < .;",
  "def isinfinite: . == infinite or . == -infinite;",
  "def isfinite: isnumber and (isinfinite | not);",
  "def isnormal: isnumber and ((. == 0 or isnan or isinfinite) | not);",
  "def finites: select(isfinite);",
  "def normals: select(isnormal);",
  "def add(f): reduce f as $x (null; . + $x);",
  "def add: add(.[]);",
  "def range($from; $to): range($from; $to; 1);",
  "def range($to): range(0; $to; 1);",
  "def repeat(f): def rec: ., (f | rec); rec;",
  "def while(cond; update): def rec: if cond then ., (update | rec) else empty end; rec;",
  "def until(cond; update): def rec: if cond then . else update | rec end; rec;",
  "def isempty(g): first((g | false), true);",
  "def any(g; f): isempty(first(g | f or empty)) | not;",
  "def any(f): any(.[]; f);",
  "def any: any(.);",
  "def all(g; f): isempty(first(g | f and empty));",
  "def all(f): all(.[]; f);",
  "def all: all(.);",
  "def isvalid(f): try (f | true) catch false;",
  "def in($xs): . as $x | $xs | has($x);",
  "def inside($xs): . as $x | $xs | contains($x);",
  "def index($x): indices($x) | .[0];",
  "def rindex($x): indices($x) | .[-1:][0];",
  "def first: .[0];",
  "def last: .[-1];",
  "def nth($n): .[$n];",
  "def nth($n; f): first(skip($n; f));",
  "def join($s): .[:1] + [.[1:][] | $s, .] | add;",
  "def min: min_by(.);",
  "def max: max_by(.);",
  "def unique_by(f): [group_by(f)[] | .[0]];",
  "def unique: unique_by(.);",
  "def with_entries(f): to_entries | map(f) | from_entries;",
  "def walk(f): def rec: (.[]? |= rec) | f; rec;",
  "def del(f): f |= empty;",
  "def paths: path(..) | select(length > 0);",
  "def paths(f): path(.. | select(f)) | select(length > 0);",
  "def leaf_paths: paths(scalars);",
  "def pick(f): . as $top | reduce path(f) as $p (null; setpath($p; $top | getpath($p)));",
  "def test(re; flags): matches(re; flags) | length > 0;",
  "def test(re): test(re; \"\");",
  "def scan(re; flags): matches(re; \"g\" + flags)[] | .[0].string;",
  "def scan(re): scan(re; \"\");",
  "def match(re; flags): matches(re; flags)[] | .[0] + \x7bcaptures: .[1:]\x7d;",
  "def match(re): match(re; \"\");",
  "def capture_object: map(select(.name) | \x7b(.name): .string\x7d) | add + \x7b\x7d;",
  "def capture(re; flags): matches(re; flags)[] | capture_object;",
  "def capture(re): capture(re; \"\");",
  "def split($re; flags): split_($re; \"g\" + flags);",
  "def splits(re; flags): split(re; flags)[];",
  "def splits(re): splits(re; \"\");",
  "def sub(re; f; flags): reduce split_matches(re; flags)[] as $x",
  "  (\"\"; . + ($x | if isstring then . else capture_object | f end));",
  "def sub(re; f): sub(re; f; \"\");",
  "def gsub(re; f; flags): sub(re; f; \"g\" + flags);",
  "def gsub(re; f): gsub(re; f; \"\");",
  "def tostream: path(def rec: (.[]? | rec), .; rec) as $p | getpath($p) | ",
  "  reduce path(.[]?) as $q ([$p, .]; [$p + $q]);",
  "def fromstream(f): [null, false] as $start | foreach f as $event ($start;",
  "  if .[1] then $start else . end | if $event | length == 2",
  "  then setpath([1]; $event[0] | length == 0) | setpath([0] + $event[0]; $event[1])",
  "  else setpath([1]; $event[0] | length == 1) end; if .[1] then .[0] else empty end);",
  "def truncate_stream(s): . as $n | null | s |",
  "  if (.[0] | length) > $n then .[0] |= .[$n:] else empty end;",
  "def combinations: if length == 0 then [] else",
  "  .[0][] as $x | (.[1:] | combinations) as $w | [$x] + $w end;",
  "def combinations(n): . as $x | [range(n)] | map($x) | combinations;",
  "def debug(f): (f | debug | empty), .;",
  "def have_literal_numbers: true;",
  "def have_decnum: false;"]

/-- The definitions as they are read. -/
def definitions : List Definition := (Definition.listOfText? ("\n".intercalate lines)).getD []

/-- The scope that a filter is evaluated in. -/
def scope : Scope := .ofDefinitions definitions

end ApiTypings.Query.Prelude
