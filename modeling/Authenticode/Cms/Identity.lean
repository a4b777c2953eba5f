import Authenticode.Key.Private
import Authenticode.Text
import Authenticode.X509.Certificate

/-!
# Signing identities

A certificate under a nickname, with its private key where that is at hand.
-/
namespace Authenticode.Cms

/-- A certificate that signs, under the name it is kept by. -/
structure SigningIdentity where
  nickname : String
  certificate : X509.Certificate
  privateKey : Option Key.PrivateKey
  deriving DecidableEq, Repr

namespace SigningIdentity

def signingKey (i : SigningIdentity) : Except Error Key.PrivateKey :=
  match i.privateKey with
  | some k => .ok k
  | none => .error (.certificate (.noPrivateKey i.nickname))

def publicKey (i : SigningIdentity) : Except Error Key.PublicKey :=
  match i.certificate.publicKey? with
  | some k => .ok k
  | none => .error .cryptographic

/-- Whether a name means this identity: its nickname or the subject's common name. -/
def isNamed (i : SigningIdentity) (name : String) : Bool :=
  i.nickname == name || i.certificate.commonName? == some name

def describe (i : SigningIdentity) : String :=
  "SigningIdentity \x7b nickname: " ++ Text.Quoted.encode i.nickname
    ++ ", subject: " ++ Text.Quoted.encodeOption i.certificate.commonName?
    ++ ", has_private_key: " ++ (if i.privateKey.isSome then "true" else "false") ++ " \x7d"

end SigningIdentity

end Authenticode.Cms
