import McpZero.Python.Unicode

/-! The environment variables of the process, and how they are read as truth values. -/
namespace McpZero.Python

/-- `os.environ`. -/
structure Environment where
  get : String → Option String

/-- `value.strip()`. -/
def stripWhitespace (value : List Char) : List Char :=
  ((value.dropWhile isWhitespace).reverse.dropWhile isWhitespace).reverse

/-- `value.strip().lower()`, as far as it is in ASCII. -/
def normalized (value : String) : List Char := (stripWhitespace value.toList).map Char.toLower

/-- `value in ("1", "true", "yes")`. No character outside ASCII has one of these letters as its
lower-case form. -/
def isAffirmative (value : List Char) : Bool :=
  value == "1".toList || value == "true".toList || value == "yes".toList

namespace Environment

variable (env : Environment)

/-- `os.environ.get(name, default)`. -/
def getD (name default : String) : String := (env.get name).getD default

/-- The variable is set to one of the affirmative texts. -/
def flag (name : String) : Bool := isAffirmative (normalized (env.getD name ""))

/-- `_env_bool`. -/
def envBool (name : String) (default : Value) : Value :=
  let value := normalized (env.getD name "")
  if value = [] then default else .bool (isAffirmative value)

end Environment

end McpZero.Python
