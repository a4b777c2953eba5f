import Authenticode.Der
import Authenticode.Digest

/-!
# The signed content

What a signature is about is not the image but a small structure that names the
kind of file and carries its digest. `IndirectData.encode` writes it.
-/
namespace Authenticode

def HashAlgorithm.identifier (a : HashAlgorithm) : Bytes :=
  Der.encodeParts Der.tagSequence [Der.encodeOid a.oid, Der.null]

def Digest.info (d : Digest) : Bytes :=
  Der.encodeParts Der.tagSequence [d.algorithm.identifier, Der.encode Der.tagOctetString d.bytes]

namespace Cms.IndirectData

/-- The identifier of the whole structure, 1.3.6.1.4.1.311.2.1.4. -/
def oid : Bytes := [0x2b, 0x06, 0x01, 0x04, 0x01, 0x82, 0x37, 0x02, 0x01, 0x04]

/-- The identifier of image data, 1.3.6.1.4.1.311.2.1.15. -/
def imageDataOid : Bytes := [0x2b, 0x06, 0x01, 0x04, 0x01, 0x82, 0x37, 0x02, 0x01, 0x0f]

/-- The octets of ASCII text with a zero before each. -/
def wideText (s : String) : Bytes := (Bytes.ofText s).flatMap fun d => [0, d]

/-- What every signature says instead of a file name. -/
def obsoleteLink : Bytes := wideText "<<<Obsolete>>>"

/-- The link to the file: a string under its choice tags. -/
def link : Bytes := Der.encode 0xa0 (Der.encode 0xa2 (Der.encode 0x80 obsoleteLink))

/-- The description of the file: one flag, unset, and the link. -/
def imageData : Bytes :=
  Der.encodeParts Der.tagSequence [Der.encode Der.tagBitString [0x07, 0x80], link]

def encode (d : Digest) : Bytes :=
  Der.encodeParts Der.tagSequence
    [Der.encodeParts Der.tagSequence [Der.encodeOid imageDataOid, imageData], d.info]

end Cms.IndirectData

end Authenticode
