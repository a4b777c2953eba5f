import Authenticode.Pe.Image
import Authenticode.Text

/-!
# Images in diagnostics

How an image and its layout are shown.
-/
namespace Authenticode.Pe

def describeRecord (name : String) (fields : List (String × String)) : String :=
  name ++ " \x7b " ++ String.intercalate ", " (fields.map fun f => f.1 ++ ": " ++ f.2) ++ " \x7d"

def Section.describe (s : Section) : String :=
  describeRecord "SectionSpan"
    [("name", Text.Quoted.encode s.name), ("pointer_to_raw_data", toString s.offset),
      ("size_of_raw_data", toString s.size)]

def Layout.describe (l : Layout) : String :=
  describeRecord "PeLayout"
    [("checksum_offset", toString l.checksumOffset),
      ("cert_dir_offset", toString l.directoryOffset),
      ("size_of_headers", toString l.sizeOfHeaders),
      ("sections", "[" ++ String.intercalate ", " (l.sections.map Section.describe) ++ "]")]

def Image.describe (i : Image) : String :=
  describeRecord "PeImage" [("len", toString i.length), ("layout", i.layout.describe)]

end Authenticode.Pe
