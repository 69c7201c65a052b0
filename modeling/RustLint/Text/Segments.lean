import RustLint.Text.Blank

set_option autoImplicit false

namespace RustLint.Text

/-- What follows the last double colon, if there is one. -/
def afterLastColons? : List Char → Option (List Char)
  | [] => none
  | c :: rest =>
    match afterLastColons? rest with
    | some segment => some segment
    | none =>
      match c, rest with
      | ':', ':' :: segment => some segment
      | _, _ => none

/-- The last segment of a path. -/
def lastSegment (path : String) : String :=
  match afterLastColons? path.toList with
  | some segment => String.ofList segment
  | none => path

/-- The segments between the double colons, found from the left. -/
def splitAtColons : List Char → List (List Char)
  | [] => [[]]
  | ':' :: ':' :: rest => [] :: splitAtColons rest
  | c :: rest =>
    match splitAtColons rest with
    | [] => [[c]]
    | segment :: segments => (c :: segment) :: segments

/-- The segments of a path, found from the left. -/
def segments (path : String) : List String := (splitAtColons path.toList).map String.ofList

/-- The path without blanks and without a double colon in front. -/
def normalizePath (path : String) : String :=
  match (squash path).toList with
  | ':' :: ':' :: rest => String.ofList rest
  | cs => String.ofList cs

end RustLint.Text
