import PanelFirmware.Prm.Store

/-!
# `config/parametres.txt`: the shipped parameter table

The table file is compiled by `tools/prmsytem2json/gen.cpp` (mode `object`): each row `p(..)`
becomes a `ValHandler` whose default, range and steps are the declared decimals times ten to the
declared power, and `valuearray` lists the parameters in file order across the groups. The rows
below hold the products.

* `declared_of_mem_parametres`: what every row satisfies (an integer type, `min <= def <= max`,
  steps that are not negative, a range narrower than half of a signed type).
-/

namespace PanelFirmware.Prm

/-- The access a row declares. The generator leaves it out of the firmware's table.
Source: `parametres.txt`, fourth column. -/
inductive Chmod
  | chmodR
  | chmodRW
  deriving DecidableEq, Repr

/-- A row of the table: its access and the handler it is compiled to.
Source: `parametres.txt`, `p(..)`. -/
structure Row where
  chmod : Chmod
  handler : ValHandler

/-- A row, in the order of the source's columns without the unit.
Source: `parametres.txt`, `p(..)`; `gen.cpp`, mode `object`. -/
def p (label : String) (T : CType) (chmod : Chmod) (callback : Option Callback) (arg addr : ℕ)
    (dflt min max step bigstep : ℤ) (power : ℕ) (save : Save)
    (dflt_repr : T.Repr dflt := by decide) (min_repr : T.Repr min := by decide)
    (max_repr : T.Repr max := by decide) (step_repr : T.Repr step := by decide)
    (bigstep_repr : T.Repr bigstep := by decide) : Row where
  chmod := chmod
  handler := {
    label, T, dflt, min, max, step, bigstep, addr, arg, power, save, callback,
    dflt_repr, min_repr, max_repr, step_repr, bigstep_repr }

/-- Source: `parametres.txt`, `group(Settings, public)`. -/
def settings : List Row :=
  [ p "version_major" .uint16 .chmodR (some .getFwVer) 0 0x0000 0 0 65535 0 0 0 .notsave,
    p "version_minor" .uint16 .chmodR (some .getFwVer) 1 0x0001 0 0 65535 0 0 0 .notsave,
    p "version_patch" .uint16 .chmodR (some .getFwVer) 2 0x0002 0 0 65535 0 0 0 .notsave,
    p "modbus_address" .uint16 .chmodRW none 0 0x0003 2 0 65535 0 0 0 .savesys,
    p "serial_number" .uint32 .chmodRW none 0 0x0004 0xFFFFFFFF 0 0xFFFFFFFF 0 0 0 .savesys,
    p "timezone" .int8 .chmodRW none 0 0x0000 (-2) (-12) 12 1 1 0 .savesys,
    p "brightness" .uint8 .chmodRW none 0 0x0101 60 10 100 1 10 0 .savesys,
    p "bpWelcomeOnOff" .uint8 .chmodRW none 0 0x0101 1 0 1 1 1 0 .savesys,
    p "bpKeyOnOff" .uint8 .chmodRW none 0 0x0101 1 0 1 1 1 0 .savesys,
    p "bpCcCvOnOff" .uint8 .chmodRW none 0 0x0101 1 0 1 1 1 0 .savesys,
    p "bpChFinOnOff" .uint8 .chmodRW none 0 0x0101 1 0 1 1 1 0 .savesys,
    p "bpErrOnOff" .uint8 .chmodRW none 0 0x0101 1 0 1 1 1 0 .savesys,
    p "ipadr" .uint32 .chmodRW none 0 0x0000 0xC0A8010A 0 0xFFFFFFFF 1 1 0 .savesys,
    p "netmask" .uint32 .chmodRW none 0 0x0000 0xFFFFFF00 0 0xFFFFFFFF 1 1 0 .savesys,
    p "gateway" .uint32 .chmodRW none 0 0x0000 0xC0A80101 0 0xFFFFFFFF 1 1 0 .savesys,
    p "dhcpOnOff" .uint8 .chmodRW none 0 0x0000 1 0 1 1 1 0 .savesys,
    p "dnsServip" .uint32 .chmodRW none 0 0x0000 0x08080808 0 0xFFFFFFFF 1 1 0 .savesys,
    p "dstOnOff" .uint8 .chmodRW none 0 0x0000 1 0 1 1 1 0 .savesys,
    p "DSTSMon" .uint8 .chmodRW none 0 0x0000 3 1 12 1 0 0 .savesys,
    p "DSTSWeek" .uint8 .chmodRW none 0 0x0000 5 1 5 1 0 0 .savesys,
    p "DSTSDay" .uint8 .chmodRW none 0 0x0000 0 0 6 1 0 0 .savesys,
    p "DSTSHour" .uint8 .chmodRW none 0 0x0000 2 0 23 1 0 0 .savesys,
    p "DSTSMin" .uint8 .chmodRW none 0 0x0000 0 0 59 1 0 0 .savesys,
    p "DSTSSec" .uint8 .chmodRW none 0 0x0000 0 0 59 1 0 0 .savesys,
    p "DSTEMon" .uint8 .chmodRW none 0 0x0000 10 1 12 1 0 0 .savesys,
    p "DSTEWeek" .uint8 .chmodRW none 0 0x0000 5 1 5 1 0 0 .savesys,
    p "DSTEDay" .uint8 .chmodRW none 0 0x0000 0 0 6 1 0 0 .savesys,
    p "DSTEHour" .uint8 .chmodRW none 0 0x0000 3 0 23 1 0 0 .savesys,
    p "DSTEMin" .uint8 .chmodRW none 0 0x0000 0 0 59 1 0 0 .savesys,
    p "DSTESec" .uint8 .chmodRW none 0 0x0000 0 0 59 1 0 0 .savesys,
    p "wireResistance" .int32 .chmodRW none 0 0x0000 0 0 2500000 1 1000 4 .savesys,
    p "wirecompensateOnOff" .uint8 .chmodRW none 0 0x0000 0 0 1 1 1 0 .savesys,
    p "hsave_settings" .uint16 .chmodRW none 0 0x010F 0 0 4 0 0 0 .notsave,
    p "reboot" .uint16 .chmodRW none 0 0x0111 2 0 2 0 0 0 .notsave,
    p "crange_set" .uint16 .chmodRW none 0 0x0000 0 0 1 1 1 0 .saveuse,
    p "vfilter" .uint16 .chmodRW none 0 0x0000 1000 1 1000 1 100 0 .saveuse,
    p "ifilter" .uint16 .chmodRW none 0 0x0000 1000 1 1000 1 100 0 .saveuse,
    p "vintegration" .uint16 .chmodRW none 0 0x0000 1 1 100 1 10 0 .saveuse,
    p "iintegration" .uint16 .chmodRW none 0 0x0000 1 1 100 1 10 0 .saveuse ]

/-- Source: `parametres.txt`, `group(Settings2, private)`. -/
def settings2 : List Row :=
  [ p "currIpadr" .uint32 .chmodRW none 0 0x0000 0 0 0xFFFFFFFF 1 1 0 .notsave,
    p "currNetmask" .uint32 .chmodRW none 0 0x0000 0 0 0xFFFFFFFF 1 1 0 .notsave,
    p "currGateway" .uint32 .chmodRW none 0 0x0000 0 0 0xFFFFFFFF 1 1 0 .notsave,
    p "utcTime" .uint32 .chmodRW none 0 0x0000 0x58684680 0x58684680 0xFFFFFFFF 86400 1728000 0
      .notsave,
    p "Ureal" .int32 .chmodRW none 0 0x0000 0 0 40000000 10 500000 6 .notsave,
    p "Ireal" .int32 .chmodRW none 0 0x0000 0 0 4000000 10 100000 6 .notsave,
    p "Umeas" .int32 .chmodR none 0 0x0000 0 0 40000000 1000 100000 6 .notsave,
    p "Imeas" .int32 .chmodR none 0 0x0000 0 0 4000000 100 100000 6 .notsave,
    p "Udac" .int32 .chmodRW none 0 0x0000 0 0 65535 1 1000 0 .notsave,
    p "Idac" .int32 .chmodRW none 0 0x0000 0 0 65535 1 1000 0 .notsave,
    p "Uadc" .uint32 .chmodR none 0 0x0000 0 0 0 0 0 0 .notsave,
    p "Iadc" .uint32 .chmodR none 0 0x0000 0 0 0 0 0 0 .notsave,
    p "point" .uint32 .chmodR none 0 0x0000 0 0 0 0 0 0 .notsave,
    p "resistance" .int32 .chmodR none 0 0x0000 0 0 2147483647 10000 100000 4 .notsave,
    p "input_v1" .int16 .chmodR none 0 0x0000 0 0 32767 10 100 1 .notsave,
    p "input_v2" .int16 .chmodR none 0 0x0000 0 0 32767 10 100 1 .notsave,
    p "input_v3" .int16 .chmodR none 0 0x0000 0 0 32767 10 100 1 .notsave,
    p "input_v4" .int16 .chmodR none 0 0x0000 0 0 32767 10 100 1 .notsave,
    p "input_vg" .int16 .chmodR none 0 0x0000 0 0 32767 10 100 1 .notsave,
    p "temp_heatsink" .int16 .chmodR none 0 0x0000 0 (-550) 1250 0 0 1 .notsave,
    p "temp_shunt" .int16 .chmodR none 0 0x0000 0 (-550) 1250 0 0 1 .notsave,
    p "temp_ref" .int16 .chmodR none 0 0x0000 0 (-550) 1250 0 0 1 .notsave,
    p "reg_serial" .uint32 .chmodR none 0 0x0000 0 0 0xFFFFFFFF 1 1 0 .notsave,
    p "mac0" .uint64 .chmodR none 0 0x0000 0 0 0xFFFFFFFF 1 1 0 .notsave,
    p "save_settings" .uint16 .chmodRW none 0 0x0000 0 0 4 0 0 0 .notsave ]

/-- Source: `parametres.txt`, `group(Common, public)`. -/
def common : List Row :=
  [ p "startcnt" .uint32 .chmodRW none 0 0x0000 0 0 0xFFFFFFFF 1 1 0 .saveuse ]

/-- Source: `parametres.txt`, `group(Base, public)`. -/
def base : List Row :=
  [ p "baseu0" .uint16 .chmodRW none 0 0x0000 1000 0 37000 10 1000 3 .saveuse,
    p "basei0" .uint16 .chmodRW none 0 0x0000 100 1 4100 1 500 3 .saveuse,
    p "basemode0" .uint8 .chmodRW none 0 0x0000 1 0 1 1 1 0 .saveuse,
    p "baseu1" .uint16 .chmodRW none 0 0x0000 1000 0 37000 10 1000 3 .saveuse,
    p "basei1" .uint16 .chmodRW none 0 0x0000 100 1 4100 1 500 3 .saveuse,
    p "basemode1" .uint8 .chmodRW none 0 0x0000 1 0 1 1 1 0 .saveuse,
    p "baseu2" .uint16 .chmodRW none 0 0x0000 1000 0 37000 10 1000 3 .saveuse,
    p "basei2" .uint16 .chmodRW none 0 0x0000 100 1 4100 1 500 3 .saveuse,
    p "basemode2" .uint8 .chmodRW none 0 0x0000 1 0 1 1 1 0 .saveuse,
    p "basepreset" .uint8 .chmodRW none 0 0x0000 0 0 2 1 1 0 .saveuse ]

/-- Source: `parametres.txt`, `group(Charger, public)`. -/
def charger : List Row :=
  [ p "chargeru" .uint16 .chmodRW none 0 0x0000 1000 0 37000 10 1000 3 .saveuse,
    p "chargeri" .uint16 .chmodRW none 0 0x0000 100 1 4100 1 500 3 .saveuse,
    p "chargermode" .uint8 .chmodRW none 0 0x0000 0 0 1 1 1 0 .saveuse,
    p "chargert" .uint32 .chmodRW none 0 0x0000 60000 1000 86400000 1000 300000 0 .saveuse ]

/-- The rows in file order. Source: `parametres.txt`. -/
def parametres : List Row := settings ++ settings2 ++ common ++ base ++ charger

/-- The parameters at start-up, in table order.
Source: `gen.cpp`, `valuearray`; `prmSystem.h` `Val::Val`. -/
def valuearray : List Val := parametres.map fun row => Val.new row.handler

/-- The row of the time zone, a signed byte from -12 to 12. -/
def timezone : Row := p "timezone" .int8 .chmodRW none 0 0x0000 (-2) (-12) 12 1 1 0 .savesys

/-- The row of the brightness, an unsigned byte from 10 to 100. -/
def brightness : Row := p "brightness" .uint8 .chmodRW none 0 0x0101 60 10 100 1 10 0 .savesys

/-! ### What every row satisfies -/

/-- A handler of integer type with `min <= def <= max`, steps that are not negative, and, where
the type is signed, a range narrower than half of the type. -/
structure ValHandler.Declared (h : ValHandler) : Prop where
  integer : h.T ≠ CType.bool ∧ h.T ≠ CType.float
  min_le_dflt : h.min ≤ h.dflt
  dflt_le_max : h.dflt ≤ h.max
  step_nonneg : 0 ≤ h.step
  bigstep_nonneg : 0 ≤ h.bigstep
  span : h.T.signed = true → h.max - h.min < 2 ^ (h.T.bits - 1)

instance (h : ValHandler) : Decidable h.Declared :=
  decidable_of_iff ((h.T ≠ CType.bool ∧ h.T ≠ CType.float) ∧ h.min ≤ h.dflt ∧ h.dflt ≤ h.max ∧
      0 ≤ h.step ∧ 0 ≤ h.bigstep ∧ (h.T.signed = true → h.max - h.min < 2 ^ (h.T.bits - 1)))
    ⟨fun ⟨a, b, c, d, e, f⟩ => ⟨a, b, c, d, e, f⟩, fun ⟨a, b, c, d, e, f⟩ => ⟨a, b, c, d, e, f⟩⟩

/-- **Every row of the shipped table is well declared.** -/
theorem declared_of_mem_parametres : ∀ row ∈ parametres, row.handler.Declared := by
  decide +kernel

end PanelFirmware.Prm
