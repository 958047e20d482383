namespace Questlog.Entries

variable {α β : Type}

/-- Gives `name` the value `a`: in its place where the name is present, else at the end. -/
def put (entries : List (String × α)) (name : String) (a : α) : List (String × α) :=
  match entries with
  | [] => [(name, a)]
  | (key, b) :: rest => if key = name then (name, a) :: rest else (key, b) :: put rest name a

/-- Gives `name` the value `a` in a list whose names ascend, and keeps it so. -/
def putSorted (entries : List (String × α)) (name : String) (a : α) : List (String × α) :=
  match entries with
  | [] => [(name, a)]
  | (key, b) :: rest =>
    if name < key then (name, a) :: (key, b) :: rest
    else if key = name then (name, a) :: rest
    else (key, b) :: putSorted rest name a

/-- The entries with each name at its first place and with its last value. -/
def ofList (entries : List (String × α)) : List (String × α) :=
  entries.foldl (fun acc e => put acc e.1 e.2) []

/-- The entries in ascending order of their names, each name with its last value. -/
def sorted (entries : List (String × α)) : List (String × α) :=
  entries.foldl (fun acc e => putSorted acc e.1 e.2) []

/-- The names, in order. -/
def names (entries : List (String × α)) : List String :=
  entries.map (·.1)

end Questlog.Entries
