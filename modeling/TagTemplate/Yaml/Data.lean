import TagTemplate.Host.Value
import TagTemplate.Yaml.Scalar

/-!
# Data of documents

What a document says: scalars, lists, and mappings whose keys are scalars. A key that is given again
keeps its place and its first form, and gets the last value. To pages data is a value of the host;
only keys that are texts can be looked up there.
-/

namespace TagTemplate.Yaml

inductive Data where
  | scalar (s : Scalar)
  | list (items : List Data)
  | mapping (entries : List (Scalar × Data))

def insertEntry (key : Scalar) (value : Data) : List (Scalar × Data) → List (Scalar × Data)
  | [] => [(key, value)]
  | entry :: entries =>
    if entry.1.sameKey key then (entry.1, value) :: entries
    else entry :: insertEntry key value entries

def Data.ofEntries (entries : List (Scalar × Data)) : Data :=
  .mapping (entries.foldl (fun found entry => insertEntry entry.1 entry.2 found) [])

def hostNumber (n : Int) : HostValue := .number (.integer n)

def uncallable : HostValue := .function ⟨⟨0, none, true⟩, none, .value .null⟩

/-- What dates can do. None of it can be asked for by a page. -/
def dateFunctions : List String :=
  ["ctime", "fromisocalendar", "fromisoformat", "fromordinal", "fromtimestamp", "isocalendar",
    "isoformat", "isoweekday", "replace", "strftime", "timetuple", "today", "toordinal", "weekday"]

def clockFunctions : List String :=
  ["astimezone", "combine", "date", "dst", "now", "strptime", "time", "timestamp", "timetz",
    "tzname", "utcfromtimestamp", "utcnow", "utcoffset", "utctimetuple"]

def Clock.fields (c : Clock) : List (String × HostValue) :=
  [("hour", hostNumber c.hour), ("minute", hostNumber c.minute), ("second", hostNumber c.second),
    ("microsecond", hostNumber c.microsecond), ("fold", hostNumber 0),
    ("tzinfo", if c.zone.isSome then .object .unprintable else .null)] ++
    clockFunctions.map fun name => (name, uncallable)

/-- A timestamp as a value of the host: a record of its parts. -/
def Timestamp.toHost (t : Timestamp) : HostValue :=
  .object (.record
    ([("year", hostNumber t.year), ("month", hostNumber t.month), ("day", hostNumber t.day),
      ("min", .object .unprintable), ("max", .object .unprintable),
      ("resolution", .object .unprintable)] ++
      dateFunctions.map (fun name => (name, uncallable)) ++
      (t.clock.map Clock.fields).getD []) [])

def Scalar.toHost : Scalar → HostValue
  | .null => .null
  | .bool b => .bool b
  | .number n => .number n
  | .string s => .string s
  | .timestamp t => t.toHost

mutual

def Data.toHost : Data → HostValue
  | .scalar s => s.toHost
  | .list items => .list (hostItems items)
  | .mapping entries => .object (.mapping (hostEntries entries))

def hostItems : List Data → List HostValue
  | [] => []
  | d :: ds => d.toHost :: hostItems ds

def hostEntries : List (Scalar × Data) → List (String × HostValue)
  | [] => []
  | (.string key, d) :: entries => (key, d.toHost) :: hostEntries entries
  | _ :: entries => hostEntries entries

end

end TagTemplate.Yaml
