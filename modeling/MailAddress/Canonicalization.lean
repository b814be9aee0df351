import MailAddress.Text

/-!
# Canonicalization of domains

The final domain of an address is written as a *canonicalizer* says, which may be any function on
texts.  Two are offered.  One leaves every domain as it is.  The other puts a default host where no
domain is.
-/

namespace MailAddress

/-- What becomes of final domains. -/
inductive Canonicalization where
  /-- They stay as they are. -/
  | unchanged
  /-- The host stands in for the missing ones. -/
  | defaultHost (host : Text)
deriving DecidableEq, Repr

namespace Canonicalization

/-- What becomes of a domain. -/
def apply : Canonicalization → Text → Text
  | .unchanged, domain => domain
  | .defaultHost host, domain => if domain.isEmpty then host else domain

/-- The canonicalization for a default host, none if it is empty. -/
def ofHost (host : Text) : Canonicalization :=
  if host.isEmpty then .unchanged else .defaultHost host

end Canonicalization

end MailAddress
