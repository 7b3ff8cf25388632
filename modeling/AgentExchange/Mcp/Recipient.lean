import AgentExchange.Library.Regex
import AgentExchange.Sdk.Clients

/-!
# The recipients the MCP server accepts

`RECIPIENT_RE`, one pattern for each kind of recipient. Every alternative is anchored at both
ends, and without the flags `m` and `u` the text is tested unit by unit.
-/
namespace AgentExchange.Mcp

open Library
open TypeScript (JsString js isLabelUnit isWhiteSpace)

def isDigitUnit (u : UInt16) : Bool := 0x30 ≤ u && u ≤ 0x39

/-- `[0-9a-f]` -/
def isLowerHexUnit (u : UInt16) : Bool := isDigitUnit u || (0x61 ≤ u && u ≤ 0x66)

/-- `[A-Za-z0-9:.\-_]` -/
def isDidUnit (u : UInt16) : Bool := isLabelUnit u || u == 0x3a || u == 0x2e

/-- `[^\s@]` -/
def isMailUnit (u : UInt16) : Bool := !isWhiteSpace u && u != 0x40

/-- `spize:[A-Za-z0-9_-]{1,64}/[A-Za-z0-9_-]{1,64}:[0-9a-f]{6}` -/
def nativeRe : Regex UInt16 :=
  .seq (.text (js "spize:")) (.seq (.run isLabelUnit 1 (some 64)) (.seq (.text (js "/"))
    (.seq (.run isLabelUnit 1 (some 64)) (.seq (.text (js ":"))
      (.run isLowerHexUnit 6 (some 6))))))

/-- `did:(?:ethr|web|key):[A-Za-z0-9:.\-_]+` -/
def didRe : Regex UInt16 :=
  .seq (.text (js "did:"))
    (.seq (.alt (.text (js "ethr")) (.alt (.text (js "web")) (.text (js "key"))))
      (.seq (.text (js ":")) (.run isDidUnit 1 none)))

/-- `[^\s@]+@[^\s@]+\.[^\s@]+` -/
def emailRe : Regex UInt16 :=
  .seq (.run isMailUnit 1 none) (.seq (.text (js "@"))
    (.seq (.run isMailUnit 1 none) (.seq (.text (js ".")) (.run isMailUnit 1 none))))

/-- `\+[0-9 ]{6,20}` -/
def phoneRe : Regex UInt16 :=
  .seq (.text (js "+")) (.run (fun u => isDigitUnit u || u == 0x20) 6 (some 20))

def recipientRe : Regex UInt16 := .alt nativeRe (.alt didRe (.alt emailRe phoneRe))

/-- What the schemas check of a recipient. -/
def acceptsRecipient (s : JsString) : Bool := 1 ≤ s.length && recipientRe.test s

end AgentExchange.Mcp
