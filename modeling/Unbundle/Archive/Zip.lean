namespace Unbundle.Zip

structure Member where
  name : List UInt8
  data : List UInt8

def little : Nat → Nat → List UInt8
  | 0, _ => []
  | width + 1, n => .ofNat n :: little width (n / 256)

def crcStep (crc : UInt32) : Nat → UInt32
  | 0 => crc
  | n + 1 => crcStep (if crc &&& 1 = 1 then (crc >>> 1) ^^^ 0xEDB88320 else crc >>> 1) n

def crc32 (data : List UInt8) : UInt32 :=
  data.foldl (fun crc b => crcStep (crc ^^^ b.toUInt32) 8) 0xFFFFFFFF ^^^ 0xFFFFFFFF

def blockLimit : Nat := 65535

def storedBlock (last : Bool) (data : List UInt8) : List UInt8 :=
  (if last then 1 else 0) :: little 2 data.length ++ little 2 (65535 - data.length) ++ data

def deflate (data : List UInt8) : List UInt8 :=
  if data.length ≤ blockLimit then storedBlock true data
  else storedBlock false (data.take blockLimit) ++ deflate (data.drop blockLimit)
termination_by data.length
decreasing_by
  simp only [blockLimit, List.length_drop] at *
  omega

def nameFlag (m : Member) : Nat := if m.name.all (· < 0x80) then 0 else 0x800

/-- The fields shared by a member's header and its directory record, with the first day of 1980
    as its time. -/
def common (m : Member) : List UInt8 :=
  little 2 20 ++ little 2 (nameFlag m) ++ little 2 8 ++ little 2 0 ++ little 2 0x21 ++
    little 4 (crc32 m.data).toNat ++ little 4 (deflate m.data).length ++ little 4 m.data.length ++
    little 2 m.name.length ++ little 2 0

def localRecord (m : Member) : List UInt8 :=
  little 4 0x04034B50 ++ common m ++ m.name ++ deflate m.data

def directoryRecord (offset : Nat) (m : Member) : List UInt8 :=
  little 4 0x02014B50 ++ little 2 20 ++ common m ++ little 2 0 ++ little 2 0 ++ little 2 0 ++
    little 4 0x01A40000 ++ little 4 offset ++ m.name

def directory (offset : Nat) : List Member → List UInt8
  | [] => []
  | m :: ms => directoryRecord offset m ++ directory (offset + (localRecord m).length) ms

def bytes (ms : List Member) : List UInt8 :=
  let records := ms.flatMap localRecord
  let directory := directory 0 ms
  records ++ directory ++ little 4 0x06054B50 ++ little 2 0 ++ little 2 0 ++ little 2 ms.length ++
    little 2 ms.length ++ little 4 directory.length ++ little 4 records.length ++ little 2 0

end Unbundle.Zip
