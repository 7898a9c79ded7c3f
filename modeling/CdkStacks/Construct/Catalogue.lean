/-!
# Catalogue of constructs

The resource types that have a construct.

* `Kind` says how a resource type is written;
* `lookup` finds the kind of a resource type.
-/

namespace CdkStacks.Construct

/-- How a resource type is written. -/
structure Kind where
  type : String
  /-- The service whose module exports the class. -/
  service : String
  className : String
  /-- Dotted paths of properties that hold free-form maps, whose keys are kept. -/
  verbatim : List String
  /-- The local name of a class that shares its name with another one. -/
  localName? : Option String
  deriving DecidableEq, Repr

namespace Kind

/-- The name by which the generated code calls the class. -/
def construct (kind : Kind) : String :=
  kind.localName?.getD kind.className

/-- A kind whose maps in `verbatim` keep their keys. -/
def keeping (type service className : String) (verbatim : List String) : Kind :=
  { type, service, className, verbatim, localName? := none }

/-- A kind without free-form maps. -/
def plain (type service className : String) : Kind :=
  keeping type service className []

end Kind

open Kind in
/-- All kinds. -/
def catalogue : List Kind :=
  [plain "AWS::AutoScaling::AutoScalingGroup" "autoscaling" "CfnAutoScalingGroup",
    plain "AWS::AutoScaling::LaunchConfiguration" "autoscaling" "CfnLaunchConfiguration",
    plain "AWS::AutoScaling::ScalingPolicy" "autoscaling" "CfnScalingPolicy",
    plain "AWS::CertificateManager::Certificate" "certificatemanager" "CfnCertificate",
    plain "AWS::CloudWatch::Alarm" "cloudwatch" "CfnAlarm",
    plain "AWS::DynamoDB::Table" "dynamodb" "CfnTable",
    plain "AWS::EC2::Instance" "ec2" "CfnInstance",
    plain "AWS::EC2::SecurityGroup" "ec2" "CfnSecurityGroup",
    plain "AWS::EC2::SecurityGroupEgress" "ec2" "CfnSecurityGroupEgress",
    plain "AWS::EC2::SecurityGroupIngress" "ec2" "CfnSecurityGroupIngress",
    plain "AWS::ElasticLoadBalancing::LoadBalancer" "elasticloadbalancing" "CfnLoadBalancer",
    plain "AWS::ElasticLoadBalancingV2::Listener" "elasticloadbalancingv2" "CfnListener",
    { plain "AWS::ElasticLoadBalancingV2::LoadBalancer" "elasticloadbalancingv2" "CfnLoadBalancer"
      with localName? := some "CfnLoadBalancerV2" },
    plain "AWS::ElasticLoadBalancingV2::TargetGroup" "elasticloadbalancingv2" "CfnTargetGroup",
    keeping "AWS::Events::Rule" "events" "CfnRule"
      ["EventPattern", "Targets.InputTransformer.InputPathsMap"],
    plain "AWS::IAM::InstanceProfile" "iam" "CfnInstanceProfile",
    keeping "AWS::IAM::ManagedPolicy" "iam" "CfnManagedPolicy" ["PolicyDocument"],
    keeping "AWS::IAM::Policy" "iam" "CfnPolicy" ["PolicyDocument"],
    keeping "AWS::IAM::Role" "iam" "CfnRole" ["AssumeRolePolicyDocument", "PolicyDocument"],
    keeping "AWS::KMS::Key" "kms" "CfnKey" ["KeyPolicy"],
    keeping "AWS::Lambda::Function" "lambda" "CfnFunction" ["Environment.Variables"],
    plain "AWS::Lambda::Permission" "lambda" "CfnPermission",
    plain "AWS::Logs::LogGroup" "logs" "CfnLogGroup",
    plain "AWS::Route53::RecordSet" "route53" "CfnRecordSet",
    plain "AWS::S3::Bucket" "s3" "CfnBucket",
    keeping "AWS::S3::BucketPolicy" "s3" "CfnBucketPolicy" ["PolicyDocument"],
    keeping "AWS::SNS::Subscription" "sns" "CfnSubscription"
      ["FilterPolicy", "DeliveryPolicy", "RedrivePolicy"],
    keeping "AWS::SNS::Topic" "sns" "CfnTopic" ["DeliveryPolicy", "DataProtectionPolicy"],
    keeping "AWS::SNS::TopicPolicy" "sns" "CfnTopicPolicy" ["PolicyDocument"],
    keeping "AWS::SQS::Queue" "sqs" "CfnQueue" ["RedrivePolicy", "RedriveAllowPolicy"],
    keeping "AWS::SQS::QueuePolicy" "sqs" "CfnQueuePolicy" ["PolicyDocument"],
    keeping "AWS::SSM::Parameter" "ssm" "CfnParameter" ["Tags"]]

/-- The kind of a resource type. -/
def lookup (type : String) : Option Kind :=
  catalogue.find? fun kind => kind.type = type

end CdkStacks.Construct
