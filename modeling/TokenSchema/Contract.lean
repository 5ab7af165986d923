import TokenSchema.Bytes.Block
import TokenSchema.Text.Blank
import TokenSchema.Text.Hex
import TokenSchema.Text.Lowercase
import TokenSchema.Text.Numeral

/-!
# Contracts

A contract has an interface name and any number of deployments, each a chain and an address. A
contract built by `Contract.add` holds lower-case addresses, each once per chain, in the order in which
they were first added.
-/

namespace TokenSchema

open TokenSchema.Bytes

/-- One chain on which a contract stands, and its address there. -/
structure Deployment where
  chainId : Nat
  address : String
  deriving DecidableEq, Repr

namespace Deployment

/-- A deployment with its address in lower case. -/
def ofAddress (chainId : Nat) (address : String) : Deployment :=
  ⟨chainId, Text.lowercase address⟩

/-- The written form: chain, colon, address. -/
def text (d : Deployment) : String :=
  Text.decimal d.chainId ++ ":" ++ d.address

end Deployment

/-- A named interface and the places where it is deployed. -/
structure Contract where
  interface : Option String
  deployments : List Deployment
  deriving DecidableEq, Repr

namespace Contract

/-- A contract without deployments. -/
def empty (interface : Option String) : Contract :=
  ⟨interface, []⟩

/-- Add a deployment; blanks around the address are dropped, and a blank or known address adds
nothing. -/
def add (c : Contract) (chainId : Nat) (address : String) : Contract :=
  let address := Text.trim address
  if address = "" then c
  else
    let d := Deployment.ofAddress chainId address
    if d ∈ c.deployments then c else { c with deployments := c.deployments ++ [d] }

/-- The deployment declared first. -/
def first? (c : Contract) : Option Deployment :=
  c.deployments.head?

/-- The addresses on one chain. -/
def addressesOn (c : Contract) (chainId : Nat) : List String :=
  (c.deployments.filter (·.chainId == chainId)).map (·.address)

/-- Whether an address, in any case, is one of the contract's on that chain. -/
def deployedAt (c : Contract) (chainId : Nat) (address : String) : Bool :=
  (c.addressesOn chainId).contains (Text.lowercase address)

end Contract

/-- The digits of an address text: blanks around it and a leading `0x` or `0X` are dropped. -/
def addressDigits (s : String) : List Char :=
  match Text.trimChars s.toList with
  | '0' :: 'x' :: rest => rest
  | '0' :: 'X' :: rest => rest
  | cs => cs

/-- The address that forty hexadecimal digits stand for. -/
def parseAddress (s : String) : Option Address := do
  let bytes ← Text.Hex.decodeChars (addressDigits s)
  Block.ofList? 20 bytes

end TokenSchema
