/-
# `OpenBms.SendEmail.Types` — contacts, e-mail messages and the texts read in them

The parts of an e-mail message that the sender looks at, the three tests it makes
on texts, and the Redis keys it puts together.

| key | set by |
| :-- | :-- |
| `${account}:${email}:${slug}` | a send, for two hours |
| `${account}:disengaged:${email}`, `unsubscribed`, `blocked` | other services |
| `badusers:${email}:${account}` | other services |
| `contact_send:${contact}:${date}` | the counter of a contact's day |
-/
import OpenBms.Lib.Js

namespace OpenBms.SendEmail

structure Contact where
  id : Int
  accountId : Option Int
  email : Option String
  hasEmail : Option Bool
  isValid : Option Bool
  hasBounced : Option Bool
  isUnsubscribed : Option Bool
  isBlocked : Option Bool

/-- `message`, as far as it decides what is sent. -/
structure Email where
  id : Int
  name : String
  title : String
  ippool : String

inductive AutomationType where
  | email
  | retargeting
  | transactional
  deriving DecidableEq

inductive ApplyFrequency where
  | unique
  | multiply
  | multiplyPeriod
  deriving DecidableEq

/-! ## Tests on texts -/

/-- `\s`. -/
def isSpace (c : Char) : Bool :=
  let n := c.toNat
  [9, 10, 11, 12, 13, 32, 160, 0x1680, 0x2028, 0x2029, 0x202f, 0x205f, 0x3000, 0xfeff].contains n
    || (0x2000 ≤ n && n ≤ 0x200a)

/-- `/^[^\s@]+@[^\s@]+\.[^\s@]+$/.test(email)`; a missing address is tested as the
text `null` or `undefined`. -/
def isValidEmail : Option String → Bool
  | none => false
  | some email =>
      let cs := email.toList
      let user := cs.takeWhile (· ≠ '@')
      let host := (cs.dropWhile (· ≠ '@')).drop 1
      !cs.any isSpace && cs.contains '@' && !user.isEmpty && !host.contains '@'
        && ((host.drop 1).dropLast).contains '.'

/-- One of the five names stands in the text after the first `@`. -/
def isMicrosoft (email : String) : Bool :=
  let provider := (((email.toList.dropWhile (· ≠ '@')).drop 1).takeWhile (· ≠ '@'))
  ["hotmail.com", "outlook.com", "live.com", "msn.com", "passport.com"].any fun name =>
    decide (name.toList <:+: provider)

/-- What `accentsMap` makes of a letter. -/
def plainLetter (c : Char) : Char :=
  if "áàãâÀÁÃÂ".toList.contains c then 'a'
  else if "éèêÉÈÊ".toList.contains c then 'e'
  else if "íìîÍÌÎ".toList.contains c then 'i'
  else if "óòôõÓÒÔÕ".toList.contains c then 'o'
  else if "úùûüÚÙÛÜ".toList.contains c then 'u'
  else if "çÇ".toList.contains c then 'c'
  else if "ñÑ".toList.contains c then 'n'
  else c

def slugify (text : String) : String :=
  String.ofList (text.toList.map plainLetter)

/-! ## Keys -/

/-- `${v}` of a number that may be missing. -/
def numberText : Option Int → String
  | none => "undefined"
  | some n => toString n

/-- `${accountId}:${email}:${emailName}`. -/
def sentKey (accountId : Option Int) (email emailName : String) : String :=
  numberText accountId ++ (":" ++ (email ++ (":" ++ emailName)))

/-- `${accountId}:${category}:${email}`. -/
def categoryKey (accountId : Int) (category email : String) : String :=
  toString accountId ++ (":" ++ (category ++ (":" ++ email)))

def badUserKey (accountId : Int) (email : String) : String :=
  "badusers:" ++ (email ++ (":" ++ toString accountId))

def contactSendKey (contactId : Int) (currentDate : String) : String :=
  "contact_send:" ++ (toString contactId ++ (":" ++ currentDate))

end OpenBms.SendEmail
