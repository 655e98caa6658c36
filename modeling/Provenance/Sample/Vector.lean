import Provenance.Sample.Recipe
import Provenance.Chain.BrokenLink
import Provenance.Json.Printer
import Provenance.Json.Form
set_option autoImplicit false

/-!
# Reference vectors

A reference vector is a recipe with the token and the rows that its chain has to
have.  Whoever derives the same hashes can be checked against them, so they can be
written out as JSON.
-/

namespace Provenance

/-- A recipe and what has to come of it. -/
structure ReferenceVector where
  name : String
  recipe : Recipe
  token : Token
  /-- The rows; none are given where only the token is to be compared. -/
  rows : List Element
  deriving DecidableEq, Repr, Inhabited

namespace ReferenceVector

/-! ## The vectors -/

/-- A holder from the start, and two transfers. -/
def heldThenTwo : ReferenceVector where
  name := "bootstrap then two transfers"
  recipe :=
    { data := Text.utf8 "TEST_DATA"
      start := .held "password"
      transfers := [.current "password1", .current "password2"] }
  token := ⟨"844410C7F7EBB264C5A2EA699F8595A73BA11433953FF61066176D964E181CEB"⟩
  rows :=
    [{ id := 0
       key := ⟨"3E49BB634F16DB9D3AADBB54EDFCD2F95F8D292F334C243FA7693C2F9DC225C8"⟩
       generator :=
        some ⟨"8E0EC86AC42602D94C8C19DBDFB152412AFD8FB2898FF619D7BE8812173FF877"⟩
       owner := some ⟨"B97B635D59EB5EA857428544E0E03E252C064DF5807A1166DAEAA33C6E814165"⟩ },
     { id := 1
       key := ⟨"51A337FC5CF17B05BF81B00E8E20CCB1B3CFBBEF6E6D0C9A16E438B485A02B24"⟩
       generator :=
        some ⟨"970A12D140FA2E0103C9D09300FB44D12B5E4A8583B9D058CD279CA79A5F3C73"⟩
       owner := none },
     { id := 2
       key := ⟨"7670BF06CE10D18DD3E9E561669D313EDF65C83A53655E43FDF414CFF58AE36A"⟩
       generator := none
       owner := none }]

/-- No holder at the start, and four keys for their own positions. -/
def vacantThenFour : ReferenceVector where
  name := "empty chain with four positional keys"
  recipe :=
    { data := Text.utf8 "parcel 42"
      start := .vacant
      transfers := [.fixed 0 "pw0", .fixed 1 "pw1", .fixed 2 "pw2", .fixed 3 "pw3"] }
  token := ⟨"A1E7686FAE63FE25BA0CE34266C8992FA8615ABF9C04FC3B7898FF0D897C57EA"⟩
  rows :=
    [{ id := 0
       key := ⟨"9A80A46221FF44BA9363FC5F630C4855737F03E0CABD4C6226B2EBBDF42ABAD4"⟩
       generator :=
        some ⟨"C74E3F6A30D6CCB437E8E2DD0263DDFBB3DA554539713D6B077E15E5E9C21337"⟩
       owner := some ⟨"E4B8EE4C6DE9F9242DD0BCB60E653AA5C4E4BFB47F9963EF3D15A3D73B52E1EE"⟩ },
     { id := 1
       key := ⟨"2D0A34100ED063D1DEA3FC34ACFDB5E71386208614A1C44F6A920D57C2370208"⟩
       generator :=
        some ⟨"37B64AA5A594EF9E17AFA3EFD2C3C40B7F46DF4674BB4A2D7F74BBD5D653B2D9"⟩
       owner := some ⟨"03C22032E4946EBB0EED98D8FB226AE993D0C6125433C9F2550CF19EA83BB20D"⟩ },
     { id := 2
       key := ⟨"F040B10FBC226A47EBA1AA087D32CCF581F0B8459C5A6E8E98463C7D741D37D0"⟩
       generator :=
        some ⟨"1485408157A5DDB915557E4D1C0027B7A76E559219D1767A21348E2A711103CE"⟩
       owner := none },
     { id := 3
       key := ⟨"DD6D73AB0FC29B84C6D4D7F99242953AA158A7922C11F9014CED4270FE574004"⟩
       generator := none
       owner := none }]

/-- No data, a holder from the start and no transfers. -/
def heldOnly : ReferenceVector where
  name := "empty data, bootstrap only"
  recipe := { data := [], start := .held "password", transfers := [] }
  token := ⟨"A7FFC6F8BF1ED76651C14756A061D662F580FF4DE43B49FA82D80A4B80F8434A"⟩
  rows := []

/-- All reference vectors. -/
def all : List ReferenceVector := [heldThenTwo, vacantThenFour, heldOnly]

/-! ## Checking -/

/-- Whether the recipe gives a valid chain with the token and the rows. -/
def holds (v : ReferenceVector) : Bool :=
  match v.recipe.build with
  | .error _ => false
  | .ok chain =>
    chain.token = v.token && (v.rows.isEmpty || chain.elements = v.rows) && chain.isValid

/-! ## JSON -/

/-- The form of the start of a chain. -/
def encodeStart : Start → Json
  | .held passphrase => .object [("Create", .string passphrase)]
  | .vacant => .string "Empty"

/-- The form of the source of a key. -/
def encodeSource : KeySource → Json
  | .current passphrase => .object [("Key", .string passphrase)]
  | .fixed position passphrase =>
    .object [("KeyOn", .array [JsonForm.encode position, .string passphrase])]

/-- The form of a vector. -/
def encode (v : ReferenceVector) : Json :=
  .object [("name", .string v.name), ("data", JsonForm.encode v.recipe.data),
    ("start", encodeStart v.recipe.start),
    ("transfers", .array (v.recipe.transfers.map encodeSource)),
    ("expected_token", JsonForm.encode v.token),
    ("expected_rows", JsonForm.encode v.rows)]

/-- All reference vectors in lines of JSON. -/
def allText : String := (Json.array (all.map encode)).pretty

end ReferenceVector

end Provenance
