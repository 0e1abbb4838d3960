import Mathlib.Algebra.Order.Ring.Int
import Mathlib.Algebra.Order.Ring.Nat
import Mathlib.Data.List.Basic
import Mathlib.Data.List.TakeWhile
import Mathlib.Order.Fin.Basic

/-! Text on the screens (`draw.c` of the arm9), of which the columns come one after another in a
framebuffer, each from the bottom to the top. -/

namespace Presence3DS.Arm9

/-- Eight rows for each character (`font.h`). -/
def font : List UInt8 := [
  0x00, 0x00, 0x00, 0x00, 0x00, 0x00, 0x00, 0x00, 0x7e, 0x81, 0xa5, 0x81, 0xbd, 0x99, 0x81, 0x7e,
  0x7e, 0xff, 0xdb, 0xff, 0xc3, 0xe7, 0xff, 0x7e, 0x6c, 0xfe, 0xfe, 0xfe, 0x7c, 0x38, 0x10, 0x00,
  0x10, 0x38, 0x7c, 0xfe, 0x7c, 0x38, 0x10, 0x00, 0x3c, 0x3c, 0x18, 0xff, 0xe7, 0x18, 0x3c, 0x00,
  0x10, 0x38, 0x7c, 0xfe, 0xee, 0x10, 0x38, 0x00, 0x00, 0x00, 0x18, 0x3c, 0x3c, 0x18, 0x00, 0x00,
  0xff, 0xff, 0xe7, 0xc3, 0xc3, 0xe7, 0xff, 0xff, 0x00, 0x3c, 0x66, 0x42, 0x42, 0x66, 0x3c, 0x00,
  0xff, 0xc3, 0x99, 0xbd, 0xbd, 0x99, 0xc3, 0xff, 0x0f, 0x07, 0x0f, 0x7d, 0xcc, 0xcc, 0xcc, 0x78,
  0x3c, 0x66, 0x66, 0x66, 0x3c, 0x18, 0x7e, 0x18, 0x08, 0x0c, 0x0a, 0x0a, 0x08, 0x78, 0xf0, 0x00,
  0x18, 0x14, 0x1a, 0x16, 0x72, 0xe2, 0x0e, 0x1c, 0x10, 0x54, 0x38, 0xee, 0x38, 0x54, 0x10, 0x00,
  0x80, 0xe0, 0xf8, 0xfe, 0xf8, 0xe0, 0x80, 0x00, 0x02, 0x0e, 0x3e, 0xfe, 0x3e, 0x0e, 0x02, 0x00,
  0x18, 0x3c, 0x5a, 0x18, 0x5a, 0x3c, 0x18, 0x00, 0x66, 0x66, 0x66, 0x66, 0x66, 0x00, 0x66, 0x00,
  0x7f, 0xdb, 0xdb, 0xdb, 0x7b, 0x1b, 0x1b, 0x00, 0x1c, 0x22, 0x38, 0x44, 0x44, 0x38, 0x88, 0x70,
  0x00, 0x00, 0x00, 0x00, 0x7e, 0x7e, 0x7e, 0x00, 0x18, 0x3c, 0x5a, 0x18, 0x5a, 0x3c, 0x18, 0x7e,
  0x18, 0x3c, 0x5a, 0x18, 0x18, 0x18, 0x18, 0x00, 0x18, 0x18, 0x18, 0x18, 0x5a, 0x3c, 0x18, 0x00,
  0x00, 0x18, 0x0c, 0xfe, 0x0c, 0x18, 0x00, 0x00, 0x00, 0x30, 0x60, 0xfe, 0x60, 0x30, 0x00, 0x00,
  0x00, 0x00, 0xc0, 0xc0, 0xc0, 0xfe, 0x00, 0x00, 0x00, 0x24, 0x42, 0xff, 0x42, 0x24, 0x00, 0x00,
  0x00, 0x10, 0x38, 0x7c, 0xfe, 0xfe, 0x00, 0x00, 0x00, 0xfe, 0xfe, 0x7c, 0x38, 0x10, 0x00, 0x00,
  0x00, 0x00, 0x00, 0x00, 0x00, 0x00, 0x00, 0x00, 0x18, 0x3c, 0x3c, 0x18, 0x18, 0x00, 0x18, 0x00,
  0x6c, 0x24, 0x24, 0x00, 0x00, 0x00, 0x00, 0x00, 0x6c, 0x6c, 0xfe, 0x6c, 0xfe, 0x6c, 0x6c, 0x00,
  0x10, 0x7c, 0xd0, 0x7c, 0x16, 0xfc, 0x10, 0x00, 0x00, 0x66, 0xac, 0xd8, 0x36, 0x6a, 0xcc, 0x00,
  0x38, 0x4c, 0x38, 0x78, 0xce, 0xcc, 0x7a, 0x00, 0x30, 0x10, 0x20, 0x00, 0x00, 0x00, 0x00, 0x00,
  0x18, 0x30, 0x60, 0x60, 0x60, 0x30, 0x18, 0x00, 0x60, 0x30, 0x18, 0x18, 0x18, 0x30, 0x60, 0x00,
  0x00, 0x66, 0x3c, 0xff, 0x3c, 0x66, 0x00, 0x00, 0x00, 0x30, 0x30, 0xfc, 0x30, 0x30, 0x00, 0x00,
  0x00, 0x00, 0x00, 0x00, 0x00, 0x30, 0x10, 0x20, 0x00, 0x00, 0x00, 0xfc, 0x00, 0x00, 0x00, 0x00,
  0x00, 0x00, 0x00, 0x00, 0x00, 0x00, 0x30, 0x00, 0x02, 0x06, 0x0c, 0x18, 0x30, 0x60, 0xc0, 0x00,
  0x7c, 0xce, 0xde, 0xf6, 0xe6, 0xe6, 0x7c, 0x00, 0x18, 0x38, 0x78, 0x18, 0x18, 0x18, 0x7e, 0x00,
  0x7c, 0xc6, 0x06, 0x1c, 0x70, 0xc6, 0xfe, 0x00, 0x7c, 0xc6, 0x06, 0x3c, 0x06, 0xc6, 0x7c, 0x00,
  0x1c, 0x3c, 0x6c, 0xcc, 0xfe, 0x0c, 0x1e, 0x00, 0xfe, 0xc0, 0xfc, 0x06, 0x06, 0xc6, 0x7c, 0x00,
  0x7c, 0xc6, 0xc0, 0xfc, 0xc6, 0xc6, 0x7c, 0x00, 0xfe, 0xc6, 0x0c, 0x18, 0x30, 0x30, 0x30, 0x00,
  0x7c, 0xc6, 0xc6, 0x7c, 0xc6, 0xc6, 0x7c, 0x00, 0x7c, 0xc6, 0xc6, 0x7e, 0x06, 0xc6, 0x7c, 0x00,
  0x00, 0x30, 0x00, 0x00, 0x00, 0x30, 0x00, 0x00, 0x00, 0x30, 0x00, 0x00, 0x00, 0x30, 0x10, 0x20,
  0x0c, 0x18, 0x30, 0x60, 0x30, 0x18, 0x0c, 0x00, 0x00, 0x00, 0x7e, 0x00, 0x00, 0x7e, 0x00, 0x00,
  0x60, 0x30, 0x18, 0x0c, 0x18, 0x30, 0x60, 0x00, 0x78, 0xcc, 0x0c, 0x18, 0x30, 0x00, 0x30, 0x00,
  0x7c, 0x82, 0x9e, 0xa6, 0x9e, 0x80, 0x7c, 0x00, 0x7c, 0xc6, 0xc6, 0xfe, 0xc6, 0xc6, 0xc6, 0x00,
  0xfc, 0x66, 0x66, 0x7c, 0x66, 0x66, 0xfc, 0x00, 0x7c, 0xc6, 0xc0, 0xc0, 0xc0, 0xc6, 0x7c, 0x00,
  0xfc, 0x66, 0x66, 0x66, 0x66, 0x66, 0xfc, 0x00, 0xfe, 0x62, 0x68, 0x78, 0x68, 0x62, 0xfe, 0x00,
  0xfe, 0x62, 0x68, 0x78, 0x68, 0x60, 0xf0, 0x00, 0x7c, 0xc6, 0xc6, 0xc0, 0xce, 0xc6, 0x7e, 0x00,
  0xc6, 0xc6, 0xc6, 0xfe, 0xc6, 0xc6, 0xc6, 0x00, 0x3c, 0x18, 0x18, 0x18, 0x18, 0x18, 0x3c, 0x00,
  0x1e, 0x0c, 0x0c, 0x0c, 0xcc, 0xcc, 0x78, 0x00, 0xe6, 0x66, 0x6c, 0x78, 0x6c, 0x66, 0xe6, 0x00,
  0xf0, 0x60, 0x60, 0x60, 0x62, 0x66, 0xfe, 0x00, 0x82, 0xc6, 0xee, 0xfe, 0xd6, 0xc6, 0xc6, 0x00,
  0xc6, 0xe6, 0xf6, 0xde, 0xce, 0xc6, 0xc6, 0x00, 0x7c, 0xc6, 0xc6, 0xc6, 0xc6, 0xc6, 0x7c, 0x00,
  0xfc, 0x66, 0x66, 0x7c, 0x60, 0x60, 0xf0, 0x00, 0x7c, 0xc6, 0xc6, 0xc6, 0xd6, 0xde, 0x7c, 0x06,
  0xfc, 0x66, 0x66, 0x7c, 0x66, 0x66, 0xe6, 0x00, 0x7c, 0xc6, 0xc0, 0x7c, 0x06, 0xc6, 0x7c, 0x00,
  0x7e, 0x5a, 0x5a, 0x18, 0x18, 0x18, 0x3c, 0x00, 0xc6, 0xc6, 0xc6, 0xc6, 0xc6, 0xc6, 0x7c, 0x00,
  0xc6, 0xc6, 0xc6, 0xc6, 0x6c, 0x38, 0x10, 0x00, 0xc6, 0xc6, 0xd6, 0xfe, 0xee, 0xc6, 0x82, 0x00,
  0xc6, 0x6c, 0x38, 0x38, 0x38, 0x6c, 0xc6, 0x00, 0x66, 0x66, 0x66, 0x3c, 0x18, 0x18, 0x3c, 0x00,
  0xfe, 0xc6, 0x8c, 0x18, 0x32, 0x66, 0xfe, 0x00, 0x78, 0x60, 0x60, 0x60, 0x60, 0x60, 0x78, 0x00,
  0xc0, 0x60, 0x30, 0x18, 0x0c, 0x06, 0x02, 0x00, 0x78, 0x18, 0x18, 0x18, 0x18, 0x18, 0x78, 0x00,
  0x10, 0x38, 0x6c, 0xc6, 0x00, 0x00, 0x00, 0x00, 0x00, 0x00, 0x00, 0x00, 0x00, 0x00, 0x00, 0xff,
  0x30, 0x20, 0x10, 0x00, 0x00, 0x00, 0x00, 0x00, 0x00, 0x00, 0x78, 0x0c, 0x7c, 0xcc, 0x76, 0x00,
  0xe0, 0x60, 0x60, 0x7c, 0x66, 0x66, 0x7c, 0x00, 0x00, 0x00, 0x7c, 0xc6, 0xc0, 0xc6, 0x7c, 0x00,
  0x1c, 0x0c, 0x0c, 0x7c, 0xcc, 0xcc, 0x76, 0x00, 0x00, 0x00, 0x7c, 0xc6, 0xfe, 0xc0, 0x7c, 0x00,
  0x1c, 0x36, 0x30, 0x78, 0x30, 0x30, 0x78, 0x00, 0x00, 0x00, 0x76, 0xcc, 0xcc, 0x7c, 0x0c, 0x78,
  0xe0, 0x60, 0x6c, 0x76, 0x66, 0x66, 0xe6, 0x00, 0x18, 0x00, 0x38, 0x18, 0x18, 0x18, 0x3c, 0x00,
  0x00, 0x0c, 0x00, 0x1c, 0x0c, 0x0c, 0xcc, 0x78, 0xe0, 0x60, 0x66, 0x6c, 0x78, 0x6c, 0xe6, 0x00,
  0x38, 0x18, 0x18, 0x18, 0x18, 0x18, 0x3c, 0x00, 0x00, 0x00, 0xcc, 0xfe, 0xd6, 0xd6, 0xd6, 0x00,
  0x00, 0x00, 0xdc, 0x66, 0x66, 0x66, 0x66, 0x00, 0x00, 0x00, 0x7c, 0xc6, 0xc6, 0xc6, 0x7c, 0x00,
  0x00, 0x00, 0xdc, 0x66, 0x66, 0x7c, 0x60, 0xf0, 0x00, 0x00, 0x7c, 0xcc, 0xcc, 0x7c, 0x0c, 0x1e,
  0x00, 0x00, 0xde, 0x76, 0x60, 0x60, 0xf0, 0x00, 0x00, 0x00, 0x7c, 0xc0, 0x7c, 0x06, 0x7c, 0x00,
  0x10, 0x30, 0xfc, 0x30, 0x30, 0x34, 0x18, 0x00, 0x00, 0x00, 0xcc, 0xcc, 0xcc, 0xcc, 0x76, 0x00,
  0x00, 0x00, 0xc6, 0xc6, 0x6c, 0x38, 0x10, 0x00, 0x00, 0x00, 0xc6, 0xd6, 0xd6, 0xfe, 0x6c, 0x00,
  0x00, 0x00, 0xc6, 0x6c, 0x38, 0x6c, 0xc6, 0x00, 0x00, 0x00, 0xcc, 0xcc, 0xcc, 0x7c, 0x0c, 0xf8,
  0x00, 0x00, 0xfc, 0x98, 0x30, 0x64, 0xfc, 0x00, 0x0e, 0x18, 0x18, 0x30, 0x18, 0x18, 0x0e, 0x00,
  0x18, 0x18, 0x18, 0x00, 0x18, 0x18, 0x18, 0x00, 0xe0, 0x30, 0x30, 0x18, 0x30, 0x30, 0xe0, 0x00,
  0x76, 0xdc, 0x00, 0x00, 0x00, 0x00, 0x00, 0x00, 0x00, 0x10, 0x38, 0x6c, 0xc6, 0xc6, 0xfe, 0x00,
  0x7c, 0xc6, 0xc0, 0xc0, 0xc6, 0x7c, 0x18, 0x70, 0xcc, 0x00, 0xcc, 0xcc, 0xcc, 0xcc, 0x76, 0x00,
  0x0e, 0x10, 0x7c, 0xc6, 0xfe, 0xc0, 0x7c, 0x00, 0x7c, 0x82, 0x38, 0x0c, 0x7c, 0xcc, 0x76, 0x00,
  0xcc, 0x00, 0x78, 0x0c, 0x7c, 0xcc, 0x76, 0x00, 0xe0, 0x10, 0x78, 0x0c, 0x7c, 0xcc, 0x76, 0x00,
  0x30, 0x30, 0x78, 0x0c, 0x7c, 0xcc, 0x76, 0x00, 0x00, 0x00, 0x7c, 0xc0, 0xc0, 0x7c, 0x18, 0x70,
  0x7c, 0x82, 0x7c, 0xc6, 0xfe, 0xc0, 0x7c, 0x00, 0xc6, 0x00, 0x7c, 0xc6, 0xfe, 0xc0, 0x7c, 0x00,
  0xe0, 0x10, 0x7c, 0xc6, 0xfe, 0xc0, 0x7c, 0x00, 0x66, 0x00, 0x38, 0x18, 0x18, 0x18, 0x3c, 0x00,
  0x7c, 0x82, 0x38, 0x18, 0x18, 0x18, 0x3c, 0x00, 0xe0, 0x10, 0x38, 0x18, 0x18, 0x18, 0x3c, 0x00,
  0xc6, 0x00, 0x7c, 0xc6, 0xfe, 0xc6, 0xc6, 0x00, 0x38, 0x38, 0x7c, 0xc6, 0xfe, 0xc6, 0xc6, 0x00,
  0x0e, 0x10, 0xfe, 0x60, 0x78, 0x60, 0xfe, 0x00, 0x00, 0x00, 0x7c, 0x12, 0x7e, 0xd0, 0x7e, 0x00,
  0x7e, 0xc8, 0xc8, 0xfe, 0xc8, 0xc8, 0xce, 0x00, 0x7c, 0x82, 0x7c, 0xc6, 0xc6, 0xc6, 0x7c, 0x00,
  0xc6, 0x00, 0x7c, 0xc6, 0xc6, 0xc6, 0x7c, 0x00, 0xe0, 0x10, 0x7c, 0xc6, 0xc6, 0xc6, 0x7c, 0x00,
  0x7c, 0x82, 0xcc, 0xcc, 0xcc, 0xcc, 0x76, 0x00, 0xe0, 0x10, 0xcc, 0xcc, 0xcc, 0xcc, 0x76, 0x00,
  0xcc, 0x00, 0xcc, 0xcc, 0xcc, 0x7c, 0x0c, 0xf8, 0xc6, 0x7c, 0xc6, 0xc6, 0xc6, 0xc6, 0x7c, 0x00,
  0xc6, 0x00, 0xc6, 0xc6, 0xc6, 0xc6, 0x7c, 0x00, 0x18, 0x7c, 0xd6, 0xd0, 0xd6, 0x7c, 0x18, 0x00,
  0x38, 0x6c, 0x60, 0xf0, 0x60, 0xf2, 0xdc, 0x00, 0x66, 0x3c, 0x18, 0x7e, 0x18, 0x7e, 0x18, 0x00,
  0xf8, 0xcc, 0xf8, 0xc4, 0xcc, 0xde, 0xcc, 0x06, 0x0e, 0x1b, 0x18, 0x3c, 0x18, 0x18, 0xd8, 0x70,
  0x0e, 0x10, 0x78, 0x0c, 0x7c, 0xcc, 0x76, 0x00, 0x0e, 0x10, 0x38, 0x18, 0x18, 0x18, 0x3c, 0x00,
  0x0e, 0x10, 0x7c, 0xc6, 0xc6, 0xc6, 0x7c, 0x00, 0x0e, 0x10, 0xcc, 0xcc, 0xcc, 0xcc, 0x76, 0x00,
  0x66, 0x98, 0xdc, 0x66, 0x66, 0x66, 0x66, 0x00, 0x66, 0x98, 0xe6, 0xf6, 0xde, 0xce, 0xc6, 0x00,
  0x38, 0x0c, 0x3c, 0x34, 0x00, 0x7e, 0x00, 0x00, 0x38, 0x6c, 0x6c, 0x38, 0x00, 0x7c, 0x00, 0x00,
  0x30, 0x00, 0x30, 0x60, 0xc6, 0xc6, 0x7c, 0x00, 0x00, 0x00, 0x00, 0xfc, 0xc0, 0xc0, 0x00, 0x00,
  0x00, 0x00, 0x00, 0xfc, 0x0c, 0x0c, 0x00, 0x00, 0xc0, 0xc8, 0xd0, 0xfe, 0x46, 0x8c, 0x1e, 0x00,
  0xc0, 0xc8, 0xd0, 0xec, 0x5c, 0xbe, 0x0c, 0x00, 0x18, 0x00, 0x18, 0x18, 0x3c, 0x3c, 0x18, 0x00,
  0x00, 0x36, 0x6c, 0xd8, 0x6c, 0x36, 0x00, 0x00, 0x00, 0xd8, 0x6c, 0x36, 0x6c, 0xd8, 0x00, 0x00,
  0x22, 0x88, 0x22, 0x88, 0x22, 0x88, 0x22, 0x88, 0x55, 0xaa, 0x55, 0xaa, 0x55, 0xaa, 0x55, 0xaa,
  0xdb, 0x77, 0xdb, 0xee, 0xdb, 0x77, 0xdb, 0xee, 0x18, 0x18, 0x18, 0x18, 0x18, 0x18, 0x18, 0x18,
  0x18, 0x18, 0x18, 0x18, 0xf8, 0x18, 0x18, 0x18, 0x18, 0x18, 0xf8, 0x18, 0xf8, 0x18, 0x18, 0x18,
  0x36, 0x36, 0x36, 0x36, 0xf6, 0x36, 0x36, 0x36, 0x00, 0x00, 0x00, 0x00, 0xfe, 0x36, 0x36, 0x36,
  0x00, 0x00, 0xf8, 0x18, 0xf8, 0x18, 0x18, 0x18, 0x36, 0x36, 0xf6, 0x06, 0xf6, 0x36, 0x36, 0x36,
  0x36, 0x36, 0x36, 0x36, 0x36, 0x36, 0x36, 0x36, 0x00, 0x00, 0xfe, 0x06, 0xf6, 0x36, 0x36, 0x36,
  0x36, 0x36, 0xf6, 0x06, 0xfe, 0x00, 0x00, 0x00, 0x36, 0x36, 0x36, 0x36, 0xfe, 0x00, 0x00, 0x00,
  0x18, 0x18, 0xf8, 0x18, 0xf8, 0x00, 0x00, 0x00, 0x00, 0x00, 0x00, 0x00, 0xf8, 0x18, 0x18, 0x18,
  0x18, 0x18, 0x18, 0x18, 0x1f, 0x00, 0x00, 0x00, 0x18, 0x18, 0x18, 0x18, 0xff, 0x00, 0x00, 0x00,
  0x00, 0x00, 0x00, 0x00, 0xff, 0x18, 0x18, 0x18, 0x18, 0x18, 0x18, 0x18, 0x1f, 0x18, 0x18, 0x18,
  0x00, 0x00, 0x00, 0x00, 0xff, 0x00, 0x00, 0x00, 0x18, 0x18, 0x18, 0x18, 0xff, 0x18, 0x18, 0x18,
  0x18, 0x18, 0x1f, 0x18, 0x1f, 0x18, 0x18, 0x18, 0x36, 0x36, 0x36, 0x36, 0x37, 0x36, 0x36, 0x36,
  0x36, 0x36, 0x37, 0x30, 0x3f, 0x00, 0x00, 0x00, 0x00, 0x00, 0x3f, 0x30, 0x37, 0x36, 0x36, 0x36,
  0x36, 0x36, 0xf7, 0x00, 0xff, 0x00, 0x00, 0x00, 0x00, 0x00, 0xff, 0x00, 0xf7, 0x36, 0x36, 0x36,
  0x36, 0x36, 0x37, 0x30, 0x37, 0x36, 0x36, 0x36, 0x00, 0x00, 0xff, 0x00, 0xff, 0x00, 0x00, 0x00,
  0x36, 0x36, 0xf7, 0x00, 0xf7, 0x36, 0x36, 0x36, 0x18, 0x18, 0xff, 0x00, 0xff, 0x00, 0x00, 0x00,
  0x36, 0x36, 0x36, 0x36, 0xff, 0x00, 0x00, 0x00, 0x00, 0x00, 0xff, 0x00, 0xff, 0x18, 0x18, 0x18,
  0x00, 0x00, 0x00, 0x00, 0xff, 0x36, 0x36, 0x36, 0x36, 0x36, 0x36, 0x36, 0x3f, 0x00, 0x00, 0x00,
  0x18, 0x18, 0x1f, 0x18, 0x1f, 0x00, 0x00, 0x00, 0x00, 0x00, 0x1f, 0x18, 0x1f, 0x18, 0x18, 0x18,
  0x00, 0x00, 0x00, 0x00, 0x3f, 0x36, 0x36, 0x36, 0x36, 0x36, 0x36, 0x36, 0xff, 0x36, 0x36, 0x36,
  0x18, 0x18, 0xff, 0x18, 0xff, 0x18, 0x18, 0x18, 0x18, 0x18, 0x18, 0x18, 0xf8, 0x00, 0x00, 0x00,
  0x00, 0x00, 0x00, 0x00, 0x1f, 0x18, 0x18, 0x18, 0xff, 0xff, 0xff, 0xff, 0xff, 0xff, 0xff, 0xff,
  0x00, 0x00, 0x00, 0x00, 0xff, 0xff, 0xff, 0xff, 0xf0, 0xf0, 0xf0, 0xf0, 0xf0, 0xf0, 0xf0, 0xf0,
  0x0f, 0x0f, 0x0f, 0x0f, 0x0f, 0x0f, 0x0f, 0x0f, 0xff, 0xff, 0xff, 0xff, 0x00, 0x00, 0x00, 0x00,
  0x00, 0x00, 0x74, 0xcc, 0xc8, 0xdc, 0x76, 0x00, 0x78, 0xcc, 0xd8, 0xcc, 0xc6, 0xc6, 0xdc, 0x40,
  0xfe, 0x62, 0x60, 0x60, 0x60, 0x60, 0xf0, 0x00, 0x00, 0x02, 0x7e, 0xec, 0x6c, 0x6c, 0x48, 0x00,
  0xfe, 0x62, 0x30, 0x18, 0x30, 0x62, 0xfe, 0x00, 0x00, 0x00, 0x7e, 0xd0, 0xc8, 0xc8, 0x70, 0x00,
  0x00, 0x00, 0xcc, 0xcc, 0xcc, 0xcc, 0xf8, 0x80, 0x00, 0x00, 0x7e, 0xd8, 0x18, 0x18, 0x10, 0x00,
  0x38, 0x10, 0x7c, 0xd6, 0xd6, 0x7c, 0x10, 0x38, 0x7c, 0xc6, 0xc6, 0xfe, 0xc6, 0xc6, 0x7c, 0x00,
  0x7c, 0xc6, 0xc6, 0xc6, 0x6c, 0x28, 0xee, 0x00, 0x3c, 0x22, 0x18, 0x7c, 0xcc, 0xcc, 0x78, 0x00,
  0x00, 0x00, 0x66, 0x99, 0x99, 0x66, 0x00, 0x00, 0x00, 0x06, 0x7c, 0x9e, 0xf2, 0x7c, 0xc0, 0x00,
  0x00, 0x00, 0x7c, 0xc0, 0xf8, 0xc0, 0x7c, 0x00, 0x00, 0x7c, 0xc6, 0xc6, 0xc6, 0xc6, 0xc6, 0x00,
  0x00, 0xfe, 0x00, 0xfe, 0x00, 0xfe, 0x00, 0x00, 0x18, 0x18, 0x7e, 0x18, 0x18, 0x00, 0x7e, 0x00,
  0x30, 0x18, 0x0c, 0x18, 0x30, 0x00, 0x7c, 0x00, 0x18, 0x30, 0x60, 0x30, 0x18, 0x00, 0x7c, 0x00,
  0x0e, 0x1b, 0x1b, 0x18, 0x18, 0x18, 0x18, 0x18, 0x18, 0x18, 0x18, 0x18, 0x18, 0xd8, 0xd8, 0x70,
  0x00, 0x18, 0x00, 0x7e, 0x00, 0x18, 0x00, 0x00, 0x00, 0x76, 0xdc, 0x00, 0x76, 0xdc, 0x00, 0x00,
  0x38, 0x6c, 0x38, 0x00, 0x00, 0x00, 0x00, 0x00, 0x00, 0x00, 0x00, 0x18, 0x18, 0x00, 0x00, 0x00,
  0x00, 0x00, 0x00, 0x00, 0x18, 0x00, 0x00, 0x00, 0x0f, 0x0c, 0x0c, 0x0c, 0xec, 0x6c, 0x3c, 0x00,
  0xd8, 0x6c, 0x6c, 0x6c, 0x00, 0x00, 0x00, 0x00, 0xf0, 0x30, 0xc0, 0xf0, 0x00, 0x00, 0x00, 0x00,
  0x00, 0x00, 0x3c, 0x3c, 0x3c, 0x3c, 0x00, 0x00, 0x00, 0x00, 0x00, 0x00, 0x00, 0x00, 0x00, 0x00]

def screenHeight : UInt32 := 240

def spacingX : UInt32 := 8

def spacingY : UInt32 := 10

def screenWidth (isTopScreen : Bool) : UInt32 := if isTopScreen then 400 else 320

/-- The size of a framebuffer. -/
def screenFbSize (isTopScreen : Bool) : ℕ := 3 * (screenWidth isTopScreen).toNat * 240

/-- The pixels of a character in a row, from the left. -/
def pixelSet (character : UInt8) (y x : ℕ) : Bool :=
  (font.getD (character.toNat * 8 + y) 0 >>> (7 - UInt8.ofNat x)) &&& 1 = 1

def pixelWrites (posX posY color : UInt32) (x y : ℕ) : List (UInt32 × UInt8) :=
  let screenPos := (posX * screenHeight * 3 + (screenHeight - UInt32.ofNat y - posY - 1) * 3) +
    UInt32.ofNat x * 3 * screenHeight
  [(screenPos, (color >>> 16).toUInt8), (screenPos + 1, (color >>> 8).toUInt8),
    (screenPos + 2, color.toUInt8)]

/-- What is written to the framebuffer, and where. -/
def drawCharacter (posX posY color : UInt32) (character : UInt8) : List (UInt32 × UInt8) :=
  (List.range 8).flatMap fun y => (List.range 8).flatMap fun x =>
    if pixelSet character y x then pixelWrites posX posY color x y else []

/-- The loop from one character of the string on. -/
def drawFrom (isTopScreen : Bool) (posX color : UInt32) :
    UInt32 → UInt32 → List UInt8 → List (UInt32 × UInt8) × UInt32
  | posY, _, [] => ([], posY)
  | posY, line_i, c :: string =>
    if c = 0x0A then drawFrom isTopScreen posX color (posY + spacingY) 0 string
    else if c = 0x09 then drawFrom isTopScreen posX color posY (line_i + 2) string
    else
      let isFull := line_i ≥ (screenWidth isTopScreen - posX) / spacingX
      let posY := if isFull then posY + spacingY else posY
      let line_i := if isFull then 1 else line_i
      -- spaces at the start of a line are left out
      if isFull ∧ c = 0x20 then drawFrom isTopScreen posX color posY line_i string
      else
        let (writes, endY) := drawFrom isTopScreen posX color posY (line_i + 1) string
        (drawCharacter (posX + line_i * spacingX) posY color c ++ writes, endY)

/-- What is written to the framebuffer of the screen, and the row that the text ends in. -/
def drawString (isTopScreen : Bool) (posX posY color : UInt32) (string : List UInt8) :
    List (UInt32 × UInt8) × UInt32 :=
  drawFrom isTopScreen posX color posY 0 string

/-! ## What is claimed -/

/-- Where a text may start: there is room for two columns of it, as in all calls. -/
structure TextStart where
  isTopScreen : Bool
  posX : UInt32
  posY : UInt32
  columns : posX.toNat + 16 ≤ (screenWidth isTopScreen).toNat

/-- All writes go to the framebuffer. -/
def DrawsInside (t : TextStart) (color : UInt32) (string : List UInt8) : Prop :=
  ∀ w ∈ (drawString t.isTopScreen t.posX t.posY color string).1,
    w.1.toNat < screenFbSize t.isTopScreen

/-- A character of the text, by its column and its line. -/
structure TextCell where
  column : UInt32
  line : ℕ
  character : UInt8

/-- The characters that are drawn, by the breaks of the lines. -/
def textCells (columns : UInt32) : UInt32 → ℕ → List UInt8 → List TextCell
  | _, _, [] => []
  | column, line, c :: string =>
    if c = 0x0A then textCells columns 0 (line + 1) string
    else if c = 0x09 then textCells columns (column + 2) line string
    else if column ≥ columns then
      if c = 0x20 then textCells columns 1 (line + 1) string
      else ⟨1, line + 1, c⟩ :: textCells columns 2 (line + 1) string
    else ⟨column, line, c⟩ :: textCells columns (column + 1) line string

/-- A pixel that lies below the screen is one of a column further to the left, if there are that
many. -/
def TextFits (t : TextStart) (string : List UInt8) : Prop :=
  ∀ p ∈ textCells ((screenWidth t.isTopScreen - t.posX) / spacingX) 0 0 string,
    ∀ y < 8, ∀ x < 8, pixelSet p.character y x = true →
      t.posY.toNat + 10 * p.line + y < 240 * (t.posX.toNat + 8 * p.column.toNat + x + 1)

variable {isTopScreen : Bool} {posX posY color : UInt32} {string : List UInt8}

theorem screenWidth_le (isTopScreen : Bool) : (screenWidth isTopScreen).toNat ≤ 400 := by
  cases isTopScreen
  · show 320 ≤ 400
    decide
  · exact le_rfl

theorem line_break (posY : UInt32) (line : ℕ) :
    posY + UInt32.ofNat (10 * line) + spacingY = posY + UInt32.ofNat (10 * (line + 1)) := by
  rw [UInt32.add_assoc]
  congr 1
  rw [show spacingY = UInt32.ofNat 10 from rfl, ← UInt32.ofNat_add]
  rfl

theorem drawFrom_writes (posY : UInt32) (w : UInt32 × UInt8) (line_i : UInt32) (line : ℕ) :
    w ∈ (drawFrom isTopScreen posX color (posY + UInt32.ofNat (10 * line)) line_i string).1 ↔
      ∃ p ∈ textCells ((screenWidth isTopScreen - posX) / spacingX) line_i line string,
        w ∈ drawCharacter (posX + p.column * spacingX) (posY + UInt32.ofNat (10 * p.line)) color
          p.character := by
  induction string generalizing line_i line with
  | nil => simp [drawFrom, textCells]
  | cons c string ih =>
    unfold drawFrom textCells
    by_cases hbreak : c = 0x0A
    · rw [if_pos hbreak, if_pos hbreak, line_break]
      exact ih 0 (line + 1)
    by_cases htab : c = 0x09
    · rw [if_neg hbreak, if_pos htab, if_neg hbreak, if_pos htab]
      exact ih (line_i + 2) line
    rw [if_neg hbreak, if_neg htab, if_neg hbreak, if_neg htab]
    by_cases hfull : line_i ≥ (screenWidth isTopScreen - posX) / spacingX
    · rw [if_pos hfull]
      by_cases hspace : c = 0x20
      · rw [if_pos hspace]
        simp only [hfull, hspace, and_self, if_true, line_break]
        exact ih 1 (line + 1)
      · rw [if_neg hspace]
        simp only [if_pos hfull, hspace, and_false, if_false, line_break]
        rw [List.mem_append, List.exists_mem_cons_iff, ih ((1 : UInt32) + 1) (line + 1)]
        rfl
    · rw [if_neg hfull]
      simp only [hfull, false_and, if_false]
      rw [List.mem_append, List.exists_mem_cons_iff, ih (line_i + 1) line]

theorem textCells_column {columns : UInt32} (hcolumns : 2 ≤ columns.toNat) {p : TextCell}
    {line_i : UInt32} {line : ℕ} (hp : p ∈ textCells columns line_i line string) :
    p.column.toNat < columns.toNat := by
  induction string generalizing line_i line with
  | nil => cases hp
  | cons c string ih =>
    unfold textCells at hp
    split_ifs at hp with hbreak htab hfull hspace
    · exact ih hp
    · exact ih hp
    · exact ih hp
    · obtain rfl | hp := List.mem_cons.mp hp
      · exact hcolumns
      · exact ih hp
    · obtain rfl | hp := List.mem_cons.mp hp
      · exact UInt32.lt_iff_toNat_lt.mp (UInt32.not_le.mp hfull)
      · exact ih hp

theorem textCells_line {columns : UInt32} {p : TextCell} {line_i : UInt32} {line : ℕ}
    (hp : p ∈ textCells columns line_i line string) : p.line ≤ line + string.length := by
  induction string generalizing line_i line with
  | nil => cases hp
  | cons c string ih =>
    have hrest : ∀ {line_i : UInt32} {line' : ℕ}, line' ≤ line + 1 →
        p ∈ textCells columns line_i line' string → p.line ≤ line + (string.length + 1) := by
      intro line_i line' hline hp
      have := ih hp
      omega
    unfold textCells at hp
    split_ifs at hp with hbreak htab hfull hspace
    · exact hrest le_rfl hp
    · exact hrest (Nat.le_succ line) hp
    · exact hrest le_rfl hp
    · obtain rfl | hp := List.mem_cons.mp hp
      · show line + 1 ≤ line + (string.length + 1)
        omega
      · exact hrest le_rfl hp
    · obtain rfl | hp := List.mem_cons.mp hp
      · exact Nat.le_add_right line _
      · exact hrest (Nat.le_succ line) hp

theorem pixel_place (px row : UInt32) {x y : ℕ} (hx : x < 8) (hy : y < 8)
    (hpx : px.toNat + 8 ≤ 400) :
    ∃ k : ℕ, ((px * screenHeight * 3 + (screenHeight - UInt32.ofNat y - row - 1) * 3) +
        UInt32.ofNat x * 3 * screenHeight).toNat + 3 * (row.toNat + y) =
      720 * (px.toNat + x) + 717 + 2 ^ 32 * k := by
  have hx' : (UInt32.ofNat x).toNat = x :=
    UInt32.toNat_ofNat_of_lt' (hx.trans (by decide))
  have hy' : (UInt32.ofNat y).toNat = y :=
    UInt32.toNat_ofNat_of_lt' (hy.trans (by decide))
  generalize UInt32.ofNat x = vx at hx' ⊢
  generalize UInt32.ofNat y = vy at hy' ⊢
  generalize hplace : (px * screenHeight * 3 + (screenHeight - vy - row - 1) * 3) +
    vx * 3 * screenHeight = place
  have hsum : place + 3 * (row + vy) = 720 * (px + vx) + 717 := by
    rw [← hplace]
    show (px * 240 * 3 + (240 - vy - row - 1) * 3) + vx * 3 * 240 + 3 * (row + vy) = _
    grind
  have hsum' := congrArg UInt32.toNat hsum
  simp only [UInt32.toNat_add, UInt32.toNat_mul, UInt32.reduceToNat, hx', hy'] at hsum'
  clear hplace hsum
  have := place.toNat_lt
  have := row.toNat_lt
  refine ⟨(place.toNat + 3 * (row.toNat + y) - (720 * (px.toNat + x) + 717)) / 2 ^ 32, ?_⟩
  omega

theorem pixelWrites_inside {px row : UInt32} {x y : ℕ} (hx : x < 8) (hy : y < 8)
    (hpx : px.toNat + 8 ≤ (screenWidth isTopScreen).toNat)
    (hrow : row.toNat + y < 240 * (px.toNat + x + 1)) :
    ∀ w ∈ pixelWrites px row color x y, w.1.toNat < screenFbSize isTopScreen := by
  have hwidth := screenWidth_le isTopScreen
  obtain ⟨k, hplace⟩ := pixel_place px row hx hy (hpx.trans hwidth)
  unfold pixelWrites screenFbSize
  extract_lets screenPos
  change screenPos.toNat + _ = _ at hplace
  have hsmall := screenPos.toNat_lt
  generalize (screenWidth isTopScreen).toNat = width at *
  have hk : k = 0 := by
    rcases k with _ | k
    · rfl
    · rw [Nat.mul_succ] at hplace
      omega
  have hpos : screenPos.toNat + 2 < 3 * width * 240 := by
    subst hk
    omega
  clear_value screenPos
  clear hplace hk hrow
  intro w hw
  simp only [List.mem_cons, List.not_mem_nil, or_false] at hw
  obtain rfl | rfl | rfl := hw
  · show screenPos.toNat < _
    omega
  · show (screenPos + 1).toNat < _
    rw [UInt32.toNat_add, show (1 : UInt32).toNat = 1 from rfl, Nat.mod_eq_of_lt (by omega)]
    omega
  · show (screenPos + 2).toNat < _
    rw [UInt32.toNat_add, show (2 : UInt32).toNat = 2 from rfl, Nat.mod_eq_of_lt (by omega)]
    exact hpos

theorem pixelWrites_outside {px row : UInt32} {x y : ℕ} (hx : x < 8) (hy : y < 8)
    (hpx : px.toNat + 8 ≤ (screenWidth isTopScreen).toNat) (hsmall : row.toNat < 2 ^ 30)
    (hrow : 240 * (px.toNat + x + 1) ≤ row.toNat + y) :
    ∃ w ∈ pixelWrites px row color x y, screenFbSize isTopScreen ≤ w.1.toNat := by
  have hwidth := screenWidth_le isTopScreen
  obtain ⟨k, hplace⟩ := pixel_place px row hx hy (hpx.trans hwidth)
  refine ⟨_, List.mem_cons_self, ?_⟩
  unfold screenFbSize
  dsimp only
  generalize (screenWidth isTopScreen).toNat = width at *
  rcases k with _ | k
  · omega
  · rw [Nat.mul_succ] at hplace
    omega

theorem mem_drawCharacter {px row : UInt32} {character : UInt8} {w : UInt32 × UInt8} :
    w ∈ drawCharacter px row color character ↔
      ∃ y < 8, ∃ x < 8, pixelSet character y x = true ∧ w ∈ pixelWrites px row color x y := by
  unfold drawCharacter
  simp only [List.mem_flatMap, List.mem_range, List.mem_ite_nil_right]

section

variable {t : TextStart}

theorem TextStart.columns_toNat (t : TextStart) :
    ((screenWidth t.isTopScreen - t.posX) / spacingX).toNat =
      ((screenWidth t.isTopScreen).toNat - t.posX.toNat) / 8 := by
  have hcolumns := t.columns
  rw [UInt32.toNat_div, UInt32.toNat_sub_of_le _ _ (UInt32.le_iff_toNat_le.mpr (by omega))]
  rfl

theorem TextStart.cell_inside (t : TextStart) {p : TextCell}
    (hp : p ∈ textCells ((screenWidth t.isTopScreen - t.posX) / spacingX) 0 0 string) :
    (t.posX + p.column * spacingX).toNat = t.posX.toNat + 8 * p.column.toNat ∧
      t.posX.toNat + 8 * p.column.toNat + 8 ≤ (screenWidth t.isTopScreen).toNat := by
  have hcolumns := t.columns
  have hcolumn := textCells_column (t.columns_toNat ▸ by omega) hp
  rw [t.columns_toNat] at hcolumn
  have hinside : t.posX.toNat + 8 * p.column.toNat + 8 ≤ (screenWidth t.isTopScreen).toNat := by
    omega
  refine ⟨?_, hinside⟩
  have hwidth := (screenWidth t.isTopScreen).toNat_lt
  rw [UInt32.toNat_add, UInt32.toNat_mul]
  show (t.posX.toNat + p.column.toNat * 8 % 2 ^ 32) % 2 ^ 32 = _
  omega

theorem row_toNat {posY : UInt32} {line : ℕ} (hsmall : posY.toNat + 10 * line < 2 ^ 32) :
    (posY + UInt32.ofNat (10 * line)).toNat = posY.toNat + 10 * line := by
  rw [UInt32.toNat_add, UInt32.toNat_ofNat_of_lt' (lt_of_le_of_lt (Nat.le_add_left _ _) hsmall),
    Nat.mod_eq_of_lt hsmall]

theorem drawString_writes (w : UInt32 × UInt8) :
    w ∈ (drawString t.isTopScreen t.posX t.posY color string).1 ↔
      ∃ p ∈ textCells ((screenWidth t.isTopScreen - t.posX) / spacingX) 0 0 string,
        ∃ y < 8, ∃ x < 8, pixelSet p.character y x = true ∧
          w ∈ pixelWrites (t.posX + p.column * spacingX)
            (t.posY + UInt32.ofNat (10 * p.line)) color x y := by
  have hwrites := @drawFrom_writes t.isTopScreen t.posX color string t.posY w 0 0
  rw [show UInt32.ofNat (10 * 0) = 0 from rfl, UInt32.add_zero] at hwrites
  refine hwrites.trans ?_
  simp only [mem_drawCharacter]

end

/-- A text that fits is drawn inside of the framebuffer. One that does not is not, unless it is so
long that its rows come round. -/
theorem drawString_inside (t : TextStart) (color : UInt32) (string : List UInt8) :
    (TextFits t string → DrawsInside t color string) ∧
    (t.posY.toNat + 10 * string.length < 2 ^ 30 → DrawsInside t color string →
      TextFits t string) := by
  constructor
  · intro hfits w hw
    obtain ⟨p, hp, y, hy, x, hx, hset, hw⟩ := drawString_writes w |>.mp hw
    obtain ⟨hpx, hcolumn⟩ := t.cell_inside hp
    have hfit := hfits p hp y hy x hx hset
    have hwidth := screenWidth_le t.isTopScreen
    refine pixelWrites_inside hx hy (hpx ▸ hcolumn) ?_ w hw
    rw [row_toNat (by omega), hpx]
    exact hfit
  · intro hsmall hinside p hp y hy x hx hset
    obtain ⟨hpx, hcolumn⟩ := t.cell_inside hp
    have hline := textCells_line hp
    have hrow : (t.posY + UInt32.ofNat (10 * p.line)).toNat = t.posY.toNat + 10 * p.line :=
      row_toNat (by omega)
    by_contra hbelow
    obtain ⟨w, hw, houtside⟩ := @pixelWrites_outside t.isTopScreen color
      (t.posX + p.column * spacingX) (t.posY + UInt32.ofNat (10 * p.line)) x y hx hy
      (hpx ▸ hcolumn) (by omega) (by omega)
    exact Nat.not_lt_of_le houtside
      (hinside w ((drawString_writes w).mpr ⟨p, hp, y, hy, x, hx, hset, hw⟩))

/-- Where the message of the PIN starts. -/
def pinMessage : TextStart where
  isTopScreen := false
  posX := 10
  posY := 10
  columns := by decide

theorem textCells_breaks (columns : UInt32) (line n : ℕ) (string : List UInt8) :
    textCells columns 0 line (List.replicate n 0x0A ++ string) =
      textCells columns 0 (line + n) string := by
  induction n generalizing line with
  | zero => rfl
  | succ n ih =>
    rw [List.replicate_succ, List.cons_append, textCells, if_pos rfl, ih, Nat.succ_add_eq_add_succ]

/-- A message of 800 bytes can leave the framebuffer. -/
theorem breaks_leave_framebuffer :
    ¬DrawsInside pinMessage 0xFFFFFF (List.replicate 799 0x0A ++ [0x41]) := by
  intro hinside
  have hpixel : pixelSet 0x41 0 1 = true := by decide +kernel
  obtain ⟨w, hw, houtside⟩ := @pixelWrites_outside false 0xFFFFFF
    (10 + 0 * spacingX) (10 + UInt32.ofNat (10 * 799)) 1 0 (by decide) (by decide) (by decide)
    (by decide) (by decide)
  refine Nat.not_lt_of_le houtside (hinside w ((drawString_writes w).mpr ?_))
  refine ⟨⟨0, 799, 0x41⟩, ?_, 0, by decide, 1, by decide, hpixel, hw⟩
  rw [textCells_breaks]
  exact List.mem_singleton.mpr rfl

end Presence3DS.Arm9
