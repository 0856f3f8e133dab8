import Mathlib.Data.List.Basic

namespace Oyster.Attestation.Mock

set_option maxRecDepth 4000

/-- `certs/root.crt` -/
def rootCert : List UInt8 := [
  0x30, 0x82, 0x01, 0x90, 0x30, 0x82, 0x01, 0x17, 0xa0, 0x03, 0x02, 0x01, 0x02, 0x02, 0x01, 0x01,
  0x30, 0x0a, 0x06, 0x08, 0x2a, 0x86, 0x48, 0xce, 0x3d, 0x04, 0x03, 0x03, 0x30, 0x0f, 0x31, 0x0d,
  0x30, 0x0b, 0x06, 0x03, 0x55, 0x04, 0x03, 0x13, 0x04, 0x72, 0x6f, 0x6f, 0x74, 0x30, 0x20, 0x17,
  0x0d, 0x37, 0x30, 0x30, 0x31, 0x30, 0x31, 0x30, 0x30, 0x30, 0x30, 0x30, 0x30, 0x5a, 0x18, 0x0f,
  0x32, 0x30, 0x35, 0x34, 0x31, 0x32, 0x30, 0x36, 0x30, 0x37, 0x35, 0x35, 0x32, 0x36, 0x5a, 0x30,
  0x0f, 0x31, 0x0d, 0x30, 0x0b, 0x06, 0x03, 0x55, 0x04, 0x03, 0x13, 0x04, 0x72, 0x6f, 0x6f, 0x74,
  0x30, 0x76, 0x30, 0x10, 0x06, 0x07, 0x2a, 0x86, 0x48, 0xce, 0x3d, 0x02, 0x01, 0x06, 0x05, 0x2b,
  0x81, 0x04, 0x00, 0x22, 0x03, 0x62, 0x00, 0x04, 0x6c, 0x79, 0x41, 0x1e, 0xba, 0xae, 0x74, 0x89,
  0xa4, 0xe8, 0x35, 0x55, 0x45, 0xc0, 0x34, 0x67, 0x84, 0xb3, 0x1d, 0xf5, 0xd0, 0x8c, 0xb1, 0xf7,
  0xc0, 0x09, 0x78, 0x36, 0xa8, 0x2f, 0x67, 0x24, 0x0f, 0x2a, 0x72, 0x01, 0x86, 0x28, 0x80, 0xa1,
  0xd0, 0x9a, 0x0b, 0xb3, 0x26, 0x63, 0x71, 0x88, 0xfb, 0xba, 0xfa, 0xb4, 0x7a, 0x10, 0xab, 0xe3,
  0x63, 0x0f, 0xcf, 0x8c, 0x18, 0xd3, 0x5d, 0x96, 0x53, 0x21, 0x84, 0x98, 0x5e, 0x58, 0x2c, 0x0d,
  0xce, 0x3d, 0xac, 0xe8, 0x44, 0x1f, 0x37, 0xb9, 0xcc, 0x92, 0x11, 0xdf, 0xf9, 0x35, 0xba, 0xae,
  0x69, 0xe4, 0x87, 0x2c, 0xc3, 0x49, 0x44, 0x10, 0xa3, 0x45, 0x30, 0x43, 0x30, 0x0e, 0x06, 0x03,
  0x55, 0x1d, 0x0f, 0x01, 0x01, 0xff, 0x04, 0x04, 0x03, 0x02, 0x01, 0x06, 0x30, 0x12, 0x06, 0x03,
  0x55, 0x1d, 0x13, 0x01, 0x01, 0xff, 0x04, 0x08, 0x30, 0x06, 0x01, 0x01, 0xff, 0x02, 0x01, 0x00,
  0x30, 0x1d, 0x06, 0x03, 0x55, 0x1d, 0x0e, 0x04, 0x16, 0x04, 0x14, 0x03, 0xda, 0xf8, 0x14, 0xe8,
  0x2a, 0x77, 0x6c, 0x55, 0x70, 0x65, 0x15, 0x1c, 0x08, 0xb7, 0x0d, 0x7e, 0x17, 0xfa, 0x01, 0x30,
  0x0a, 0x06, 0x08, 0x2a, 0x86, 0x48, 0xce, 0x3d, 0x04, 0x03, 0x03, 0x03, 0x67, 0x00, 0x30, 0x64,
  0x02, 0x30, 0x34, 0xd6, 0xba, 0x1f, 0xc4, 0x56, 0x88, 0x51, 0x0f, 0x92, 0x61, 0x2b, 0xdb, 0x7f,
  0xb1, 0xb0, 0x22, 0x88, 0x72, 0xe8, 0xa7, 0x84, 0x85, 0xec, 0xe2, 0x47, 0x1a, 0x39, 0x0e, 0x01,
  0x85, 0xab, 0x23, 0x5c, 0x27, 0x89, 0x2d, 0x4c, 0x35, 0xa9, 0x52, 0xdc, 0xb3, 0xe5, 0xc6, 0x41,
  0xda, 0xbf, 0x02, 0x30, 0x22, 0xb6, 0xd4, 0xc7, 0x66, 0x80, 0x0b, 0x7d, 0x3f, 0x9c, 0xc0, 0x12,
  0x9f, 0xc0, 0x8b, 0xf6, 0x87, 0xf8, 0x68, 0x7b, 0x88, 0xa1, 0x07, 0xea, 0xcb, 0xad, 0x7a, 0x7b,
  0x49, 0xf6, 0xbe, 0x1f, 0x73, 0xf8, 0x01, 0xdd, 0x69, 0xf8, 0x58, 0x37, 0x63, 0x53, 0xd6, 0x0f,
  0x34, 0x43, 0xda, 0x9d]

/-- `certs/leaf.crt` -/
def leafCert : List UInt8 := [
  0x30, 0x82, 0x01, 0xce, 0x30, 0x82, 0x01, 0x53, 0xa0, 0x03, 0x02, 0x01, 0x02, 0x02, 0x11, 0x00,
  0x99, 0x35, 0xf9, 0x94, 0x2d, 0x28, 0x5a, 0xa3, 0x08, 0x28, 0xca, 0xbe, 0xb6, 0x17, 0x80, 0x6f,
  0x30, 0x0a, 0x06, 0x08, 0x2a, 0x86, 0x48, 0xce, 0x3d, 0x04, 0x03, 0x03, 0x30, 0x0f, 0x31, 0x0d,
  0x30, 0x0b, 0x06, 0x03, 0x55, 0x04, 0x03, 0x13, 0x04, 0x72, 0x6f, 0x6f, 0x74, 0x30, 0x20, 0x17,
  0x0d, 0x37, 0x30, 0x30, 0x31, 0x30, 0x31, 0x30, 0x30, 0x30, 0x30, 0x30, 0x30, 0x5a, 0x18, 0x0f,
  0x32, 0x30, 0x35, 0x34, 0x31, 0x32, 0x30, 0x36, 0x30, 0x37, 0x35, 0x35, 0x32, 0x35, 0x5a, 0x30,
  0x0f, 0x31, 0x0d, 0x30, 0x0b, 0x06, 0x03, 0x55, 0x04, 0x03, 0x13, 0x04, 0x6c, 0x65, 0x61, 0x66,
  0x30, 0x76, 0x30, 0x10, 0x06, 0x07, 0x2a, 0x86, 0x48, 0xce, 0x3d, 0x02, 0x01, 0x06, 0x05, 0x2b,
  0x81, 0x04, 0x00, 0x22, 0x03, 0x62, 0x00, 0x04, 0x86, 0x92, 0x82, 0x96, 0x8b, 0x06, 0xcf, 0x61,
  0xb9, 0xc3, 0x0c, 0x3b, 0xbf, 0xa1, 0x76, 0x72, 0x5c, 0xae, 0x06, 0x34, 0xe8, 0xc0, 0x52, 0x53,
  0x6f, 0x1a, 0xac, 0xff, 0x52, 0xf3, 0x70, 0x30, 0x87, 0xf1, 0xa8, 0x24, 0x6f, 0x70, 0x36, 0xb1,
  0xbf, 0xe2, 0x63, 0x79, 0xa3, 0x50, 0x43, 0x4f, 0x3b, 0x40, 0x90, 0x90, 0xbf, 0xef, 0x6e, 0x95,
  0x1c, 0xd1, 0xce, 0x41, 0x82, 0x89, 0x54, 0xbf, 0x4b, 0x5b, 0x0c, 0xc6, 0x26, 0x6e, 0x3c, 0x08,
  0x63, 0xf0, 0x15, 0x38, 0x42, 0x72, 0xd9, 0x90, 0xff, 0x4a, 0x18, 0xaf, 0x35, 0x3f, 0x88, 0x45,
  0x00, 0xa4, 0xad, 0xb3, 0x7f, 0x1c, 0xc4, 0x11, 0xa3, 0x71, 0x30, 0x6f, 0x30, 0x0e, 0x06, 0x03,
  0x55, 0x1d, 0x0f, 0x01, 0x01, 0xff, 0x04, 0x04, 0x03, 0x02, 0x03, 0xb8, 0x30, 0x1d, 0x06, 0x03,
  0x55, 0x1d, 0x25, 0x04, 0x16, 0x30, 0x14, 0x06, 0x08, 0x2b, 0x06, 0x01, 0x05, 0x05, 0x07, 0x03,
  0x01, 0x06, 0x08, 0x2b, 0x06, 0x01, 0x05, 0x05, 0x07, 0x03, 0x02, 0x30, 0x1d, 0x06, 0x03, 0x55,
  0x1d, 0x0e, 0x04, 0x16, 0x04, 0x14, 0x9a, 0xf6, 0xc1, 0x7c, 0x9a, 0xe3, 0xd8, 0x07, 0xb3, 0x59,
  0x6b, 0x0b, 0x05, 0xdb, 0x7b, 0x30, 0x76, 0x4a, 0xe1, 0x1b, 0x30, 0x1f, 0x06, 0x03, 0x55, 0x1d,
  0x23, 0x04, 0x18, 0x30, 0x16, 0x80, 0x14, 0x03, 0xda, 0xf8, 0x14, 0xe8, 0x2a, 0x77, 0x6c, 0x55,
  0x70, 0x65, 0x15, 0x1c, 0x08, 0xb7, 0x0d, 0x7e, 0x17, 0xfa, 0x01, 0x30, 0x0a, 0x06, 0x08, 0x2a,
  0x86, 0x48, 0xce, 0x3d, 0x04, 0x03, 0x03, 0x03, 0x69, 0x00, 0x30, 0x66, 0x02, 0x31, 0x00, 0xb1,
  0xea, 0xc6, 0xba, 0x5d, 0x62, 0x07, 0xe4, 0xcf, 0xc3, 0x83, 0x36, 0xbe, 0x2a, 0x87, 0x60, 0xa4,
  0x15, 0x4c, 0x56, 0x93, 0xb2, 0x46, 0x89, 0xec, 0x58, 0x52, 0x91, 0x57, 0x3f, 0xec, 0xda, 0xb2,
  0xd9, 0xcb, 0x35, 0x4d, 0xe8, 0x88, 0x95, 0xc2, 0x5a, 0x47, 0x09, 0x25, 0xc8, 0x38, 0xd9, 0x02,
  0x31, 0x00, 0xf0, 0xc0, 0xec, 0x3a, 0x44, 0x07, 0xce, 0x81, 0x76, 0x8c, 0x07, 0xd9, 0x28, 0x85,
  0x85, 0xbc, 0xf8, 0x4f, 0x26, 0xf5, 0x57, 0x55, 0x5a, 0x8b, 0xe7, 0xe8, 0xed, 0xb4, 0x82, 0x6a,
  0x4e, 0xd0, 0xf2, 0x58, 0x70, 0x8b, 0x42, 0x50, 0xa8, 0x4c, 0xb5, 0xfa, 0xb4, 0xff, 0x72, 0x14,
  0x09, 0x8e]

@[simp] theorem rootCert_length : rootCert.length = 404 := rfl

@[simp] theorem leafCert_length : leafCert.length = 466 := rfl

theorem leafCert_heads : leafCert.take 8 = [0x30, 0x82, 0x01, 0xce, 0x30, 0x82, 0x01, 0x53] := rfl

/-- The bits of the subject public key of the root certificate. -/
def rootPublicKey : List UInt8 := (rootCert.drop 119).take 97

/-- The part of the leaf certificate that the root signs. -/
def leafTbsCertificate : List UInt8 := (leafCert.drop 4).take 343

theorem leafTbsCertificate_length : leafTbsCertificate.length = 343 := rfl

theorem rootPublicKey_length : rootPublicKey.length = 97 := rfl

theorem rootPublicKey_head : rootPublicKey.head? = some 0x04 := rfl

end Oyster.Attestation.Mock
